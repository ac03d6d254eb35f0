/-!
# Blanks, comments and line ends

A reader takes a value from the front of a text and gives the rest, or nothing if there is none. A
line may end in a comment; lists and the space between statements may span lines (`skipLines`).
-/

set_option autoImplicit false
set_option relaxedAutoImplicit false

namespace TypedPacket.Toml

abbrev Reader (α : Type) : Type := List Char → Option (α × List Char)

/-- The characters that may stand inside a line: all but the controls, of which there is the tab. -/
def isPrintable (c : Char) : Bool := c = '\t' || (0x20 ≤ c.toNat && c.toNat ≠ 0x7F)

/-- The blanks inside a line. -/
def isSpace (c : Char) : Bool := c = ' ' || c = '\t'

def skipSpace (input : List Char) : List Char := input.dropWhile isSpace

/-- The rest after the end of a line. -/
def afterNewline? : List Char → Option (List Char)
  | '\n' :: rest => some rest
  | '\r' :: '\n' :: rest => some rest
  | _ => none

/-- The rest after a comment, up to the end of its line. -/
def skipComment : List Char → List Char
  | '#' :: rest => rest.dropWhile isPrintable
  | input => input

/-- The rest after a line on which nothing more is stated. -/
def afterLine? (input : List Char) : Option (List Char) :=
  match skipComment (skipSpace input) with
  | [] => some []
  | rest => afterNewline? rest

/-- Takes blanks, comments and line ends. The flag tells whether a comment is being read. -/
def skipLines : (comment : Bool) → List Char → List Char
  | _, '\n' :: rest => skipLines false rest
  | _, '\r' :: '\n' :: rest => skipLines false rest
  | true, c :: rest => if isPrintable c then skipLines true rest else c :: rest
  | false, c :: rest =>
    if isSpace c then skipLines false rest
    else if c = '#' then skipLines true rest
    else c :: rest
  | _, [] => []

end TypedPacket.Toml
