import TypedPacket.Encoding.Basic
import TypedPacket.Error

/-!
# Packet headers

The header of a packet names the kind of its payload and carries what is known about it: a type
descriptor, a capture time, a series and free metadata. In a frame a header is in the fixed-width
layout; it has to span its octets exactly. A header that would take more than `maxSize` of them is
not written, and the prefix of a frame announces no longer one.
-/

set_option autoImplicit false
set_option relaxedAutoImplicit false

namespace TypedPacket

/-- What is known about a payload. -/
structure PacketHeader where
  kind : PayloadKind
  typeDescriptor : Option String
  /-- Milliseconds since 1970 in universal time, 0 if not stamped. -/
  captureTime : UInt64
  series : Option String
  metadata : TextMap
  deriving DecidableEq, Repr

namespace PacketHeader

/-- A header that says nothing but the kind. -/
def ofKind (kind : PayloadKind) : PacketHeader := ⟨kind, none, 0, none, .empty⟩

@[reducible] def schema : Schema :=
  ⟨"PacketHeader", [⟨"kind", .choice PayloadKind.choice⟩, ⟨"type_descriptor", .optionalText⟩,
    ⟨"capture_time_ms", .word .w64⟩, ⟨"series", .optionalText⟩, ⟨"metadata", .textMap⟩]⟩

def toRow (header : PacketHeader) : Row schema.fields :=
  (header.kind.index, header.typeDescriptor, header.captureTime.toBitVec, header.series,
    header.metadata, ())

def ofRow : Row schema.fields → PacketHeader
  | (kind, typeDescriptor, captureTime, series, metadata, ()) =>
    ⟨.ofIndex kind, typeDescriptor, ⟨captureTime⟩, series, metadata⟩

@[simp] theorem ofRow_toRow (header : PacketHeader) : ofRow header.toRow = header := by
  simp [ofRow, toRow]

theorem toRow_ofRow (row : Row schema.fields) : (ofRow row).toRow = row := by
  obtain ⟨kind, typeDescriptor, captureTime, series, metadata, ⟨⟩⟩ := row
  simp only [ofRow, toRow, PayloadKind.index_ofIndex]

instance : Recorded PacketHeader := ⟨schema, toRow, ofRow, ofRow_toRow⟩

/-- The most octets of a header in a frame. -/
def maxSize : Nat := 64 * 1024

/-- The octets that a header takes in a frame. -/
def size (header : PacketHeader) : Nat := FixedWidth.rowSize header.toRow

/-- The octets of a header, whatever their number. -/
def bytes (header : PacketHeader) : ByteArray := FixedWidth.writeRow header.toRow

theorem size_bytes (header : PacketHeader) : header.bytes.size = header.size :=
  FixedWidth.size_writeRow header.toRow

/-- Refuses a header that would not fit in a frame. -/
def checkSize (header : PacketHeader) : Except PacketError Unit :=
  if maxSize < header.size then .error (.unwritable (.headerTooLarge header.size)) else .ok ()

theorem checkSize_eq_ok_iff {header : PacketHeader} :
    header.checkSize = .ok () ↔ header.size ≤ maxSize := by
  unfold checkSize
  split
  · rename_i hlong
    simp only [reduceCtorEq, Nat.not_le.mpr hlong]
  · rename_i hshort
    simp only [Nat.le_of_not_lt hshort]

/-- The octets of a header in a frame. -/
def encode (header : PacketHeader) : Except PacketError ByteArray := do
  header.checkSize
  .ok header.bytes

/-- The header that spans the octets exactly. -/
def decode (bytes : ByteArray) : Except PacketError PacketHeader :=
  match FixedWidth.readRow schema.fields bytes with
  | .ok (row, rest) => if rest.size = 0 then .ok (ofRow row) else .error .invalidHeader
  | .error _ => .error .invalidHeader

end PacketHeader

end TypedPacket
