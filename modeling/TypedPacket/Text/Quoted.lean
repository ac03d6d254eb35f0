import TypedPacket.Text.Printable

/-!
# Quoted text in messages

A text is shown between double quotes. Quotes, backslashes and the common controls are escaped with a
backslash; any other character that does not show is written by its code point in braces.
-/

set_option autoImplicit false
set_option relaxedAutoImplicit false

namespace TypedPacket.Quoted

/-- The lowercase hexadecimal digits of a number, none to spare. -/
def hex (n : Nat) : String := String.ofList (Nat.toDigits 16 n)

def escape (c : Char) : String :=
  match c with
  | '"' => "\\\""
  | '\\' => "\\\\"
  | '\n' => "\\n"
  | '\r' => "\\r"
  | '\t' => "\\t"
  | '\x00' => "\\0"
  | c => if Printable.shows c then c.toString else "\\u\x7b" ++ hex c.toNat ++ "\x7d"

/-- The text between quotes. -/
def quote (text : String) : String :=
  "\"" ++ text.toList.foldl (fun shown c => shown ++ escape c) "" ++ "\""

end TypedPacket.Quoted
