import TypedPacket.Json.Value
import TypedPacket.Schema.Basic

/-!
# Writing MessagePack

Integers take the shortest of their forms, the unsigned ones when they are not negative; numbers with
a fraction always take eight octets. What a text or a container is announced with is its size in 32
bits (`inField`), in the shortest form of these; nothing says that a size is beyond them. A record is
written as the list of its values in order, a choice as the name of its variant, and a blob as a list
of numbers.
-/

set_option autoImplicit false
set_option relaxedAutoImplicit false

namespace TypedPacket.MessagePack

/-- A marker and a number after it, most significant octet first. -/
def marked (marker : UInt8) (width n : Nat) (out : ByteArray) : ByteArray :=
  (bigEndian width n).foldl ByteArray.push (out.push marker)

def emitNatural (n : Nat) (out : ByteArray) : ByteArray :=
  if n < 0x80 then out.push (UInt8.ofNat n)
  else if n < 0x100 then marked 0xCC 1 n out
  else if n < 0x10000 then marked 0xCD 2 n out
  else if n < 0x100000000 then marked 0xCE 4 n out
  else marked 0xCF 8 n out

def emitInteger (n : Int) (out : ByteArray) : ByteArray :=
  if 0 ≤ n then emitNatural n.toNat out
  else if -0x20 ≤ n then out.push (UInt8.ofNat (n + 0x100).toNat)
  else if -0x80 ≤ n then marked 0xD0 1 (n + 0x100).toNat out
  else if -0x8000 ≤ n then marked 0xD1 2 (n + 0x10000).toNat out
  else if -0x80000000 ≤ n then marked 0xD2 4 (n + 0x100000000).toNat out
  else marked 0xD3 8 (n + 0x10000000000000000).toNat out

/-- A size in the 32 bits that the format has for one. -/
def inField (size : Nat) : Nat := size % 2 ^ 32

theorem inField_lt (size : Nat) : inField size < 2 ^ 32 := Nat.mod_lt size (by decide)

theorem inField_of_lt {size : Nat} (hsize : size < 2 ^ 32) : inField size = size :=
  Nat.mod_eq_of_lt hsize

def emitTextHead (size : Nat) (out : ByteArray) : ByteArray :=
  let n := inField size
  if n < 0x20 then out.push (UInt8.ofNat (0xA0 + n))
  else if n < 0x100 then marked 0xD9 1 n out
  else if n < 0x10000 then marked 0xDA 2 n out
  else marked 0xDB 4 n out

def emitText (text : String) (out : ByteArray) : ByteArray :=
  emitTextHead text.toUTF8.size out ++ text.toUTF8

/-- The head of a container, in one octet for a short one. -/
def emitContainerHead (base : Nat) (short long : UInt8) (size : Nat) (out : ByteArray) :
    ByteArray :=
  let n := inField size
  if n < 0x10 then out.push (UInt8.ofNat (base + n))
  else if n < 0x10000 then marked short 2 n out
  else marked long 4 n out

def emitListHead (size : Nat) (out : ByteArray) : ByteArray :=
  emitContainerHead 0x90 0xDC 0xDD size out

def emitMapHead (size : Nat) (out : ByteArray) : ByteArray :=
  emitContainerHead 0x80 0xDE 0xDF size out

mutual

/-- Appends a value. -/
def emit : Json.Value → ByteArray → ByteArray
  | .null, out => out.push 0xC0
  | .flag false, out => out.push 0xC2
  | .flag true, out => out.push 0xC3
  | .number (.integer n _), out => emitInteger n out
  | .number (.double bits _), out => marked 0xCB 8 bits.toNat out
  | .text text, out => emitText text out
  | .list items, out => emitItems items (emitListHead items.length out)
  | .object fields, out => emitFields fields (emitMapHead fields.length out)

def emitItems : List Json.Value → ByteArray → ByteArray
  | [], out => out
  | item :: rest, out => emitItems rest (emit item out)

def emitFields : List (String × Json.Value) → ByteArray → ByteArray
  | [], out => out
  | (key, value) :: rest, out => emitFields rest (emit value (emitText key out))

end

/-- The octets of a value. -/
def writeValue (value : Json.Value) : ByteArray := emit value .empty

/-- Appends the value of a field. -/
def emitField : (type : FieldType) → type.Val → ByteArray → ByteArray
  | .word _, content, out => emitNatural content.toNat out
  | .text, content, out => emitText content out
  | .optionalText, none, out => out.push 0xC0
  | .optionalText, some content, out => emitText content out
  | .blob, content, out =>
    (octets content).foldl (fun out octet => emitNatural octet.toNat out)
      (emitListHead content.size out)
  | .choice among, index, out => emitText (among.variants.get index) out
  | .textMap, map, out =>
    map.entries.foldl (fun out entry => emitText entry.2 (emitText entry.1 out))
      (emitMapHead map.entries.length out)

def emitRow : (fields : List Field) → Row fields → ByteArray → ByteArray
  | [], _, out => out
  | field :: fields, (content, row), out => emitRow fields row (emitField field.type content out)

/-- The octets of a record. -/
def writeRecord (schema : Schema) (row : Row schema.fields) : ByteArray :=
  emitRow schema.fields row (emitListHead schema.fields.length .empty)

end TypedPacket.MessagePack
