import TypedPacket.Toml.Lexeme

/-!
# Texts in documents

A text stands between quotes or apostrophes, one of them or three. Only between quotes is a backslash
special, and only between three delimiters may a text have line ends. Each of the four forms is given
by the piece that comes next (`Form.next`); a text is written in the plainest form that can hold it
(`Form.plainest`).
-/

set_option autoImplicit false
set_option relaxedAutoImplicit false

namespace TypedPacket.Toml

/-! ### Escapes -/

def hexDigit? (c : Char) : Option Nat :=
  if '0' ≤ c ∧ c ≤ '9' then some (c.toNat - '0'.toNat)
  else if 'a' ≤ c ∧ c ≤ 'f' then some (c.toNat - 'a'.toNat + 10)
  else if 'A' ≤ c ∧ c ≤ 'F' then some (c.toNat - 'A'.toNat + 10)
  else none

/-- The character whose code point has the given digits. -/
def codePoint? (digits : List Char) : Option Char := do
  let n ← digits.foldlM (fun n c => (hexDigit? c).map (16 * n + ·)) 0
  if n.isValidChar then some (Char.ofNat n) else none

/-- Reads a code point of so many digits. -/
def codePoint (count : Nat) : Reader Char := fun input =>
  let digits := input.take count
  if digits.length = count then (codePoint? digits).map (·, input.drop count) else none

/-- Reads an escaped character after its backslash. -/
def escaped : Reader Char
  | 'b' :: rest => some ('\x08', rest)
  | 't' :: rest => some ('\t', rest)
  | 'n' :: rest => some ('\n', rest)
  | 'f' :: rest => some ('\x0c', rest)
  | 'r' :: rest => some ('\r', rest)
  | '"' :: rest => some ('"', rest)
  | '\\' :: rest => some ('\\', rest)
  | 'u' :: rest => codePoint 4 rest
  | 'U' :: rest => codePoint 8 rest
  | _ => none

/-- The rest after a backslash at the end of a line: it joins what stands before it to the next
character that is no blank. -/
def joined? (input : List Char) : Option (List Char) :=
  (afterNewline? (skipSpace input)).map joinedTo
where
  joinedTo : List Char → List Char
    | '\n' :: rest => joinedTo rest
    | '\r' :: '\n' :: rest => joinedTo rest
    | c :: rest => if isSpace c then joinedTo rest else c :: rest
    | [] => []

/-! ### Reading -/

/-- What comes next in a text: characters of it, or its end with the last of them. -/
inductive Piece
  | more (chars rest : List Char)
  | last (chars rest : List Char)
  deriving DecidableEq, Repr

/-- Takes pieces up to the last. Every turn takes a character, so the length of the input bounds the
turns. -/
def pieces (next : List Char → Option Piece) (turns : Nat) : Reader (List Char) := fun input =>
  match turns with
  | 0 => none
  | turns + 1 =>
    match next input with
    | none => none
    | some (.last chars rest) => some (chars, rest)
    | some (.more chars rest) =>
      (pieces next turns rest).map fun (text, rest) => (chars ++ text, rest)

/-- The end of a text between three delimiters; up to two more before it belong to the text. -/
def tripleEnd? (delimiter : Char) : List Char → Option Piece
  | a :: b :: c :: rest =>
    if a = delimiter ∧ b = delimiter ∧ c = delimiter then
      match rest with
      | d :: e :: after =>
        if d = delimiter ∧ e = delimiter then some (.last [d, e] after)
        else if d = delimiter then some (.last [d] (e :: after))
        else some (.last [] rest)
      | [d] => if d = delimiter then some (.last [d] []) else some (.last [] rest)
      | [] => some (.last [] [])
    else none
  | _ => none

/-- The four ways to write a text. -/
inductive Form
  | quotes | apostrophes | threeQuotes | threeApostrophes
  deriving DecidableEq, Repr

namespace Form

/-- What comes next in a text of this form. -/
def next (form : Form) (input : List Char) : Option Piece :=
  match form, input with
  | .quotes, '"' :: rest => some (.last [] rest)
  | .quotes, '\\' :: rest => (escaped rest).map fun (c, rest) => .more [c] rest
  | .apostrophes, '\'' :: rest => some (.last [] rest)
  | .threeQuotes, '\\' :: rest =>
    match joined? rest with
    | some rest => some (.more [] rest)
    | none => (escaped rest).map fun (c, rest) => .more [c] rest
  | .threeQuotes, c :: rest =>
    (tripleEnd? '"' (c :: rest)).or (lineOrCharacter (c :: rest))
  | .threeApostrophes, c :: rest =>
    (tripleEnd? '\'' (c :: rest)).or (lineOrCharacter (c :: rest))
  | _, c :: rest => if isPrintable c then some (.more [c] rest) else none
  | _, [] => none
where
  lineOrCharacter (input : List Char) : Option Piece :=
    match afterNewline? input, input with
    | some rest, _ => some (.more ['\n'] rest)
    | none, c :: rest => if isPrintable c then some (.more [c] rest) else none
    | none, [] => none

/-- Reads a text of this form after its opening delimiter. -/
def read (form : Form) : Reader String := fun input =>
  (pieces form.next (input.length + 1) input).map fun (text, rest) => (String.ofList text, rest)

end Form

/-- Without a line end at the front. -/
def dropNewline (input : List Char) : List Char := (afterNewline? input).getD input

/-- Reads a text on a single line. -/
def lineText : Reader String
  | '"' :: rest => Form.quotes.read rest
  | '\'' :: rest => Form.apostrophes.read rest
  | _ => none

/-- Reads a text. Between three delimiters a line end at the very front is not part of it. -/
def text : Reader String
  | '"' :: '"' :: '"' :: rest => Form.threeQuotes.read (dropNewline rest)
  | '\'' :: '\'' :: '\'' :: rest => Form.threeApostrophes.read (dropNewline rest)
  | input => lineText input

/-! ### Writing -/

/-- The controls other than tab and line end. -/
def isControl (c : Char) : Bool := !isPrintable c && c ≠ '\n'

/-- The length of the longest run of a character. -/
def longestRun (c : Char) (words : List Char) : Nat := go words 0 0
where
  go : List Char → Nat → Nat → Nat
    | [], run, longest => max run longest
    | d :: rest, run, longest =>
      if d = c then go rest (run + 1) longest else go rest 0 (max run longest)

namespace Form

/-- The first form in order that can hold the text. -/
def plainest (words : List Char) : Form :=
  let controls := words.any isControl
  let lines := words.contains '\n'
  if !controls && !lines && !words.contains '\\' && !words.contains '"' then .quotes
  else if !controls && !lines && !words.contains '\'' then .apostrophes
  else if !controls && !words.contains '\\' && longestRun '"' words < 3 then .threeQuotes
  else if !controls && longestRun '\'' words < 3 then .threeApostrophes
  else if lines then .threeQuotes
  else .quotes

def delimiter : Form → List Char
  | .quotes => ['"']
  | .apostrophes => ['\'']
  | .threeQuotes => ['"', '"', '"']
  | .threeApostrophes => ['\'', '\'', '\'']

end Form

def hexDigit (n : Nat) : Char := Char.ofNat (if n < 10 then '0'.toNat + n else 'A'.toNat + n - 10)

/-- A character between quotes. -/
def escape (c : Char) : List Char :=
  match c with
  | '\x08' => ['\\', 'b']
  | '\t' => ['\\', 't']
  | '\x0c' => ['\\', 'f']
  | '\r' => ['\\', 'r']
  | '\\' => ['\\', '\\']
  | c =>
    if isControl c then ['\\', 'u', '0', '0', hexDigit (c.toNat / 16), hexDigit (c.toNat % 16)]
    else [c]

/-- A text between quotes or three quotes. A quote is escaped where it would be the last of the
delimiter's; `run` counts those before it. -/
def escapeAll (form : Form) : (run : Nat) → List Char → List Char
  | _, [] => []
  | run, c :: rest =>
    if c = '"' then
      if run + 1 < form.delimiter.length then '"' :: escapeAll form (run + 1) rest
      else '\\' :: '"' :: escapeAll form 0 rest
    else if c = '\n' ∧ form = .quotes then '\\' :: 'n' :: escapeAll form 0 rest
    else escape c ++ escapeAll form 0 rest

/-- A text in the plainest form that can hold it. Between three delimiters a text with line ends
starts on a line of its own. -/
def writeText (value : String) : List Char :=
  let words := value.toList
  let form := Form.plainest words
  let lead := if form.delimiter.length = 3 ∧ words.contains '\n' then ['\n'] else []
  let body := match form with
    | .quotes | .threeQuotes => escapeAll form 0 words
    | .apostrophes | .threeApostrophes => words
  form.delimiter ++ lead ++ body ++ form.delimiter

end TypedPacket.Toml
