import TypedPacket.Number.Shortest
import TypedPacket.Text.Map
import TypedPacket.Octets

/-!
# JSON values

Structured values: null, booleans, numbers, texts, lists and objects. A number is an integer that a
signed or an unsigned word of 64 bits holds, or a finite binary number; an object is a list of its
fields, in increasing order of the keys when it comes from a reader (`Value.object`).

`Value.emit` appends the compact text of a value: no blanks, fields as they stand, and the shortest
digits for numbers with a fraction.
-/

set_option autoImplicit false
set_option relaxedAutoImplicit false

namespace TypedPacket.Json

/-- A number: an exact integer or a finite binary number, by its bits. -/
inductive Number
  | integer (value : Int) (range : -2 ^ 63 ≤ value ∧ value < 2 ^ 64)
  | double (bits : UInt64) (finite : Binary64.isFinite bits = true)
  deriving DecidableEq, Repr

namespace Number

def natural (value : UInt64) : Number :=
  .integer value.toNat (by have := value.toNat_lt; omega)

/-- The integer as a number, if words of 64 bits hold it. -/
def integer? (value : Int) : Option Number :=
  if range : -2 ^ 63 ≤ value ∧ value < 2 ^ 64 then some (.integer value range) else none

/-- The bits as a number, if they are finite. -/
def double? (bits : UInt64) : Option Number :=
  if finite : Binary64.isFinite bits then some (.double bits finite) else none

end Number

inductive Value
  | null
  | flag (value : Bool)
  | number (value : Number)
  | text (value : String)
  | list (items : List Value)
  | object (fields : List (String × Value))
  deriving Repr

namespace Value

instance : Inhabited Value := ⟨.null⟩

/-- A value inside so many one-element lists. -/
def nestList (inner : Value) : Nat → Value
  | 0 => inner
  | depth + 1 => .list [nestList inner depth]

/-- A value inside so many objects of one field. -/
def nestObject (key : String) (inner : Value) : Nat → Value
  | 0 => inner
  | depth + 1 => .object [(key, nestObject key inner depth)]

end Value

/-! ### Compact text -/

/-- Exponents from -5 to 15 are written out; the rest follow an `e` and a sign. -/
def numberStyle : NumberStyle := ⟨fun exponent => -5 ≤ exponent && exponent ≤ 15⟩

def Number.show : Number → String
  | .integer value _ => toString value
  | .double bits _ => numberStyle.double bits

/-- The octet of a hexadecimal digit, in lower case. -/
def hexDigit (n : UInt8) : UInt8 := if n < 10 then 0x30 + n else 0x57 + n

/-- An octet of a text as it stands between quotes. -/
def escape (octet : UInt8) : List UInt8 :=
  if octet = 0x22 ∨ octet = 0x5C then [0x5C, octet]
  else if 0x20 ≤ octet then [octet]
  else match octet with
    | 0x08 => [0x5C, 0x62]
    | 0x09 => [0x5C, 0x74]
    | 0x0A => [0x5C, 0x6E]
    | 0x0C => [0x5C, 0x66]
    | 0x0D => [0x5C, 0x72]
    | octet => [0x5C, 0x75, 0x30, 0x30, hexDigit (octet >>> 4), hexDigit (octet &&& 0xF)]

/-- Appends a quoted text. -/
def emitText (text : String) (out : ByteArray) : ByteArray :=
  let body := (octets text.toUTF8).foldl
    (fun out octet => (escape octet).foldl ByteArray.push out) (out.push 0x22)
  body.push 0x22

mutual

/-- Appends the compact text of a value. -/
def Value.emit : Value → ByteArray → ByteArray
  | .null, out => out ++ "null".toUTF8
  | .flag true, out => out ++ "true".toUTF8
  | .flag false, out => out ++ "false".toUTF8
  | .number value, out => out ++ value.show.toUTF8
  | .text value, out => emitText value out
  | .list items, out => (emitItems items (out.push 0x5B)).push 0x5D
  | .object fields, out => (emitFields fields (out.push 0x7B)).push 0x7D

def emitItems : List Value → ByteArray → ByteArray
  | [], out => out
  | [item], out => item.emit out
  | item :: next :: rest, out => emitItems (next :: rest) ((item.emit out).push 0x2C)

def emitFields : List (String × Value) → ByteArray → ByteArray
  | [], out => out
  | [(key, value)], out => value.emit ((emitText key out).push 0x3A)
  | (key, value) :: next :: rest, out =>
    emitFields (next :: rest) ((value.emit ((emitText key out).push 0x3A)).push 0x2C)

end

/-- The compact text of a value. -/
def Value.write (value : Value) : ByteArray := value.emit .empty

end TypedPacket.Json
