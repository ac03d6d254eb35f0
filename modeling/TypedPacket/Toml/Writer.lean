import TypedPacket.Toml.Scalar
import TypedPacket.Toml.Text

/-!
# Writing documents

A document of sections, each a table with a header of its own and plain settings, one a line. A blank
line stands between sections. A size beyond the integers of a document cannot be written.
-/

set_option autoImplicit false
set_option relaxedAutoImplicit false

namespace TypedPacket.Toml

/-- The value of a setting. -/
inductive Setting
  | size (value : UInt64)
  | flag (value : Bool)
  | text (value : String)
  deriving DecidableEq, Repr

namespace Setting

/-- The value as it is read. -/
def value : Setting → Value
  | .size n => .integer n.toNat
  | .flag b => .flag b
  | .text words => .text words

def write : Setting → Option (List Char)
  | .size n => if n.toNat ≤ maxInteger then some (Nat.toDigits 10 n.toNat) else none
  | .flag true => some ['t', 'r', 'u', 'e']
  | .flag false => some ['f', 'a', 'l', 's', 'e']
  | .text words => some (writeText words)

end Setting

/-- A name for a table and its settings, which have bare names. -/
structure Section where
  name : String
  settings : List (String × Setting)
  deriving DecidableEq, Repr

namespace Section

def writeSettings : List (String × Setting) → Option (List Char)
  | [] => some []
  | (name, setting) :: rest => do
    let written ← setting.write
    let lines ← writeSettings rest
    some (name.toList ++ ' ' :: '=' :: ' ' :: written ++ '\n' :: lines)

def write (content : Section) : Option (List Char) := do
  let lines ← writeSettings content.settings
  some ('[' :: content.name.toList ++ ']' :: '\n' :: lines)

/-- The sections with a blank line between them. -/
def writeAll : List Section → Option (List Char)
  | [] => some []
  | [content] => content.write
  | content :: rest => do
    let lines ← content.write
    let others ← writeAll rest
    some (lines ++ '\n' :: others)

end Section

end TypedPacket.Toml
