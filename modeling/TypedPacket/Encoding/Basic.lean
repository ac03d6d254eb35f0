import TypedPacket.Encoding.Fault
import TypedPacket.Json.Record
import TypedPacket.MessagePack.Record
import TypedPacket.MessagePack.Writer
import TypedPacket.Payload
import TypedPacket.Status

/-!
# Encodings

A value is stored in one of three encodings: the fixed-width layout, JSON or MessagePack. A tag of one
octet in front of a value names its encoding (`ofTag?_tag`), so that a reader can tell it
(`readTagged`). Records are encoded by their schema; a structured value has no fixed-width form that
could be read back.
-/

set_option autoImplicit false
set_option relaxedAutoImplicit false

namespace TypedPacket

/-- The ways to store a value. -/
inductive Encoding
  | fixedWidth | json | messagePack
  deriving DecidableEq, Repr

namespace Encoding

instance : Inhabited Encoding := ⟨.json⟩

/-- The octet that names an encoding. -/
def tag : Encoding → UInt8
  | .fixedWidth => 1
  | .json => 2
  | .messagePack => 3

def all : List Encoding := [.fixedWidth, .json, .messagePack]

/-- The encoding of a tag. -/
def ofTag? (tag : UInt8) : Option Encoding := all.find? fun encoding => encoding.tag == tag

theorem ofTag?_tag (encoding : Encoding) : ofTag? encoding.tag = some encoding := by
  cases encoding <;> decide

def name : Encoding → String
  | .fixedWidth => "bincode"
  | .json => "json"
  | .messagePack => "msgpack"

/-- The types of values can be told from the octets. -/
def isSelfDescribing : Encoding → Bool
  | .fixedWidth => false
  | .json => true
  | .messagePack => true

@[reducible] def choice : Choice := ⟨"SerializationFormat", ["bincode", "json", "msgpack"]⟩

def ofIndex (i : Fin choice.variants.length) : Encoding :=
  match i.val with
  | 0 => .fixedWidth
  | 1 => .json
  | _ => .messagePack

end Encoding

/-- A type with a form in every encoding. -/
class Encodable (α : Type) where
  write : Encoding → α → ByteArray
  /-- Reads a value; octets after it are refused by JSON alone. -/
  read : Encoding → ByteArray → Except ReadFault α

/-- A type whose values are the rows of a schema. -/
class Recorded (α : Type) where
  schema : Schema
  toRow : α → Row schema.fields
  ofRow : Row schema.fields → α
  ofRow_toRow : ∀ value : α, ofRow (toRow value) = value

/-- Reads JSON, with the position of what stops it. -/
def readJson {α : Type} (reader : Json.Reader α) (bytes : ByteArray) : Except ReadFault α :=
  let input := octets bytes
  match Json.readAll reader input with
  | .ok value => .ok value
  | .error stop => .error (.json stop.cause (stop.position input))

namespace Recorded

variable {α : Type} [Recorded α]

def write (encoding : Encoding) (value : α) : ByteArray :=
  match encoding with
  | .fixedWidth => FixedWidth.writeRow (toRow value)
  | .json => Json.writeRecord (schema α) (toRow value)
  | .messagePack => MessagePack.writeRecord (schema α) (toRow value)

def read (encoding : Encoding) (bytes : ByteArray) : Except ReadFault α :=
  match encoding with
  | .fixedWidth =>
    match FixedWidth.readRow (schema α).fields bytes with
    | .ok (row, _) => .ok (ofRow row)
    | .error fault => .error (.fixedWidth fault)
  | .json => (readJson (Json.record (schema α)) bytes).map ofRow
  | .messagePack =>
    match MessagePack.record (schema α) (octets bytes) with
    | .ok (row, _) => .ok (ofRow row)
    | .error fault => .error (.messagePack fault)

instance : Encodable α := ⟨write, read⟩

end Recorded

instance : Recorded RawImage := ⟨RawImage.schema, RawImage.toRow, RawImage.ofRow, RawImage.ofRow_toRow⟩

instance : Recorded Status := ⟨Status.schema, Status.toRow, Status.ofRow, Status.ofRow_toRow⟩

/-! ### Structured values -/

namespace FixedWidth

/-- A number of eight octets: an integer, or the bits of a number with a fraction. -/
def writeNumber : Json.Number → ByteArray
  | .integer value _ => length (value % 2 ^ 64).toNat
  | .double bits _ => length bits.toNat

mutual

/-- Appends a structured value without any mark of its type. -/
def emitValue : Json.Value → ByteArray → ByteArray
  | .null, out => out
  | .flag value, out => out.push (if value then 1 else 0)
  | .number value, out => out ++ writeNumber value
  | .text value, out => out ++ writeText value
  | .list items, out => emitItems items (out ++ length items.length)
  | .object fields, out => emitFields fields (out ++ length fields.length)

def emitItems : List Json.Value → ByteArray → ByteArray
  | [], out => out
  | item :: rest, out => emitItems rest (emitValue item out)

def emitFields : List (String × Json.Value) → ByteArray → ByteArray
  | [], out => out
  | (key, value) :: rest, out => emitFields rest (emitValue value (out ++ writeText key))

end

end FixedWidth

namespace Json.Value

def encode (encoding : Encoding) (value : Value) : ByteArray :=
  match encoding with
  | .fixedWidth => FixedWidth.emitValue value .empty
  | .json => value.write
  | .messagePack => MessagePack.writeValue value

def decode (encoding : Encoding) (bytes : ByteArray) : Except ReadFault Value :=
  match encoding with
  | .fixedWidth => .error (.fixedWidth .untyped)
  | .json => readJson (Json.value depthLimit) bytes
  | .messagePack =>
    match MessagePack.readValue (octets bytes) with
    | .ok value => .ok value
    | .error fault => .error (.messagePack fault)

instance : Encodable Value := ⟨encode, decode⟩

end Json.Value

/-! ### Tagged values -/

/-- The octets of a value behind the tag of its encoding. -/
def writeTagged {α : Type} [Encodable α] (encoding : Encoding) (value : α) : ByteArray :=
  [encoding.tag].toByteArray ++ Encodable.write encoding value

/-- The value behind a tag, and its encoding. -/
def readTagged {α : Type} [Encodable α] (bytes : ByteArray) : Except ReadFault (α × Encoding) :=
  if h : 0 < bytes.size then
    match Encoding.ofTag? bytes[0] with
    | none => .error (.unknownTag bytes[0])
    | some encoding => do
      .ok (← Encodable.read encoding (bytes.extract 1 bytes.size), encoding)
  else .error .empty

end TypedPacket
