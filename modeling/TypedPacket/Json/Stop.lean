import TypedPacket.Json.Value
import TypedPacket.Schema.Mismatch

/-!
# Where reading JSON stops

A reader takes octets from the front and gives a value and the rest, or stops with a cause and the
octets it leaves. The position of a stop is told from what was taken before it (`Position.after`):
the line counts the line feeds taken, the column the octets taken since the last of them.
-/

set_option autoImplicit false
set_option relaxedAutoImplicit false

namespace TypedPacket.Json

/-- Why reading stops. -/
inductive Cause
  | endInValue
  | endInList
  | endInObject
  | endInText
  | expectedColon
  | expectedListEnd
  | expectedObjectEnd
  | expectedWord
  | expectedValue
  | keyNotText
  | trailingComma
  | trailingOctets
  | controlCharacter
  | invalidEscape
  | loneSurrogate
  | cutSurrogate
  | invalidText
  | invalidNumber
  | numberOutOfRange
  | tooDeep
  | mismatch (cause : Mismatch)
  deriving DecidableEq, Repr

def dialect : Dialect := ⟨"null", numberStyle⟩

def Cause.message : Cause → String
  | .endInValue => "EOF while parsing a value"
  | .endInList => "EOF while parsing a list"
  | .endInObject => "EOF while parsing an object"
  | .endInText => "EOF while parsing a string"
  | .expectedColon => "expected `:`"
  | .expectedListEnd => "expected `,` or `]`"
  | .expectedObjectEnd => "expected `,` or `\x7d`"
  | .expectedWord => "expected ident"
  | .expectedValue => "expected value"
  | .keyNotText => "key must be a string"
  | .trailingComma => "trailing comma"
  | .trailingOctets => "trailing characters"
  | .controlCharacter => "control character (\\u0000-\\u001F) found while parsing a string"
  | .invalidEscape => "invalid escape"
  | .loneSurrogate => "lone leading surrogate in hex escape"
  | .cutSurrogate => "unexpected end of hex escape"
  | .invalidText => "invalid unicode code point"
  | .invalidNumber => "invalid number"
  | .numberOutOfRange => "number out of range"
  | .tooDeep => "recursion limit exceeded"
  | .mismatch cause => cause.message dialect

/-- A cause and the octets not taken. -/
structure Stop where
  cause : Cause
  rest : List UInt8
  deriving DecidableEq, Repr

abbrev Reader (α : Type) := List UInt8 → Except Stop (α × List UInt8)

/-- Stops after what was taken. -/
def stop {α : Type} (cause : Cause) (rest : List UInt8) : Except Stop α := .error ⟨cause, rest⟩

/-- Stops after the next octet too, which is the one at fault. -/
def stopAt {α : Type} (cause : Cause) (rest : List UInt8) : Except Stop α :=
  .error ⟨cause, rest.tail⟩

def misfit {α : Type} (cause : Mismatch) (rest : List UInt8) : Except Stop α :=
  stop (.mismatch cause) rest

/-- A line, from 1, and the number of octets taken on it. -/
structure Position where
  line : Nat
  column : Nat
  deriving DecidableEq, Repr

namespace Position

def start : Position := ⟨1, 0⟩

/-- The position after one more octet. -/
def advance (position : Position) (octet : UInt8) : Position :=
  if octet = 0x0A then ⟨position.line + 1, 0⟩ else ⟨position.line, position.column + 1⟩

/-- The position after the octets. -/
def after (taken : List UInt8) : Position := taken.foldl advance start

def message (position : Position) : String :=
  " at line " ++ toString position.line ++ " column " ++ toString position.column

end Position

/-- The position of a stop in `input`. -/
def Stop.position (input : List UInt8) (s : Stop) : Position :=
  Position.after (input.take (input.length - s.rest.length))

/-- Octets between lexemes. -/
def isBlank (octet : UInt8) : Bool :=
  octet = 0x20 || octet = 0x0A || octet = 0x0D || octet = 0x09

def skipBlank (input : List UInt8) : List UInt8 := input.dropWhile isBlank

/-- Runs a reader over the whole input: only blanks may follow. -/
def readAll {α : Type} (reader : Reader α) (input : List UInt8) : Except Stop α := do
  let (value, rest) ← reader input
  match skipBlank rest with
  | [] => .ok value
  | rest => stopAt .trailingOctets rest

end TypedPacket.Json
