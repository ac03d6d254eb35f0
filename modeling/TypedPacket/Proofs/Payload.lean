import Mathlib.Algebra.Group.Defs
import TypedPacket.Proofs.FixedWidth.Inversion
import TypedPacket.Proofs.Json.Reading
import TypedPacket.Proofs.MessagePack.Reading
import TypedPacket.Proofs.Readback
import TypedPacket.Proofs.Serializer

/-!
# What octets are read as payloads

A structured value is read from behind the tag of an encoding (`readStruct_eq_ok_iff`), and an image
from the octets that it is written as, whatever follows them (`readImage_eq_ok_iff`). So whatever
octets are read as a payload, written by whom it may be, the payload is one that the standard
serializer accepts, and what it makes of it is read as the same payload
(`Payload.serialize_of_read`).
-/

set_option autoImplicit false
set_option relaxedAutoImplicit false

namespace TypedPacket

/-! ### Texts -/

theorem readText_eq_ok_iff {bytes : ByteArray} {words : String} :
    readText bytes = .ok words ↔ bytes = words.toUTF8 := by
  rw [← Utf8.decode_eq_ok_iff, readText]
  cases Utf8.decode bytes with
  | ok found => simp only [Except.ok.injEq]
  | error fault => simp only [reduceCtorEq]

/-! ### Structured values -/

theorem readStruct_eq_ok_iff {bytes : ByteArray} {value : Json.Value} :
    readStruct bytes = .ok value ↔ ∃ encoding body,
      bytes = [encoding.tag].toByteArray ++ body ∧
        Json.Value.decode encoding body = .ok value := by
  have htagged : readStruct bytes = .ok value ↔
      ∃ encoding, readTagged bytes = .ok (value, encoding) := by
    unfold readStruct
    split
    · rename_i found encoding h
      simp only [h, Except.ok.injEq, Prod.mk.injEq, exists_and_left, exists_eq', and_true]
    · rename_i fault h
      simp only [h, reduceCtorEq, exists_false]
  rw [htagged]
  exact exists_congr fun encoding ↦ readTagged_eq_ok_iff

namespace Json.Value

variable {encoding : Encoding} {bytes : ByteArray} {value : Value}

theorem decode_messagePack_eq_ok_iff :
    decode .messagePack bytes = .ok value ↔
      ∃ rest, MessagePack.value MessagePack.depthLimit (octets bytes) = .ok (value, rest) := by
  unfold decode MessagePack.readValue
  cases MessagePack.value MessagePack.depthLimit (octets bytes) with
  | error fault => simp [Except.map]
  | ok found => simp [Except.map, Prod.ext_iff]

theorem exists_of_decode_json (h : decode .json bytes = .ok value) :
    ∃ rest, Json.value depthLimit (octets bytes) = .ok (value, rest) := by
  unfold decode readJson at h
  dsimp only at h
  split at h
  · rename_i found hread
    obtain rfl := Except.ok.inj h
    obtain ⟨⟨content, rest⟩, hvalue, hend⟩ := bind_eq_ok_iff.mp hread
    dsimp only at hend
    split at hend
    · obtain rfl := Except.ok.inj hend
      exact ⟨rest, hvalue⟩
    · cases hend
  · cases h

/-- What is read in an encoding can be written in it and read again. -/
theorem decode_encode_of_decode (hread : decode encoding bytes = .ok value)
    (hexact : encoding = .json → value.Exact) :
    decode encoding (encode encoding value) = .ok value := by
  have hback : value.Shallow encoding.depthLimit ∧
      (encoding = .messagePack → value.Within (2 ^ 32)) := by
    cases encoding with
    | fixedWidth => cases hread
    | json =>
      obtain ⟨rest, hvalue⟩ := exists_of_decode_json hread
      exact ⟨yields_value _ _ value rest hvalue, nofun⟩
    | messagePack =>
      obtain ⟨rest, hvalue⟩ := decode_messagePack_eq_ok_iff.mp hread
      have hstorable := MessagePack.yields_value _ _ value rest hvalue
      exact ⟨hstorable.toShallow, fun _ ↦ hstorable.within⟩
  obtain ⟨back, heq, hshallow, -⟩ := decode_encode hback.1.ordered hback.2
  obtain rfl := heq hexact
  exact hshallow hback.1.depth_lt

end Json.Value

/-! ### Images -/

namespace RawImage

variable {image : RawImage} {bytes : ByteArray}

theorem size_data_lt (h : image.isConsistent = true) : image.data.size < 2 ^ 64 := by
  have hexpected := of_decide_eq_true h
  unfold expectedSize? at hexpected
  split at hexpected
  · rename_i harea
    rwa [← Option.some.inj hexpected]
  · cases hexpected

/-- The octets that an image is written as are read as the image, whatever follows them. -/
theorem readRow_append (hdata : image.data.size < 2 ^ 64) (rest : ByteArray) :
    FixedWidth.readRow schema.fields (FixedWidth.writeRow image.toRow ++ rest) =
      .ok (image.toRow, rest) := by
  have hword : ∀ (word : BitVec 32) (rest : ByteArray),
      FixedWidth.read (.word .w32) (FixedWidth.write (.word .w32) word ++ rest) =
        .ok (word, rest) :=
    fun _ ↦ FixedWidth.read_write (by exact trivial) (show 4 < 2 ^ 64 by decide)
  have hformat : ∀ rest : ByteArray,
      FixedWidth.read (.choice PixelFormat.choice)
          (FixedWidth.write (.choice PixelFormat.choice) image.format.index ++ rest) =
        .ok (image.format.index, rest) :=
    FixedWidth.read_write (by decide) (show 4 < 2 ^ 64 by decide)
  simp only [FixedWidth.readRow, FixedWidth.writeRow, toRow, ByteArray.append_assoc, hword, hformat,
    FixedWidth.read_blob hdata, ByteArray.empty_append, bind, Except.bind]

theorem read_eq_ok_iff :
    (Encodable.read .fixedWidth bytes : Except ReadFault RawImage) = .ok image ↔
      ∃ padding, FixedWidth.readRow schema.fields bytes = .ok (image.toRow, padding) := by
  change Recorded.read .fixedWidth bytes = .ok image ↔ _
  unfold Recorded.read
  dsimp only
  cases FixedWidth.readRow schema.fields bytes with
  | error fault => exact iff_of_false nofun fun ⟨_, h⟩ ↦ nomatch h
  | ok found =>
    constructor
    · intro h
      obtain rfl := Except.ok.inj h
      exact ⟨found.2, congrArg Except.ok (Prod.ext (toRow_ofRow found.1).symm rfl)⟩
    · rintro ⟨padding, h⟩
      obtain rfl := Except.ok.inj h
      exact congrArg Except.ok (ofRow_toRow image)

end RawImage

/-- An image is read only from the octets that it is written as, whatever follows them. -/
theorem readImage_eq_ok_iff {bytes : ByteArray} {image : RawImage} :
    readImage bytes = .ok image ↔ image.isConsistent = true ∧
      ∃ padding, bytes = Encodable.write .fixedWidth image ++ padding := by
  constructor
  · intro h
    unfold readImage at h
    split at h
    · rename_i found hread
      split at h
      · rename_i hconsistent
        obtain rfl := Except.ok.inj h
        obtain ⟨padding, hrow⟩ := RawImage.read_eq_ok_iff.mp hread
        obtain ⟨front, hfront, rfl⟩ := FixedWidth.spellsRow_of_readRow hrow
        exact ⟨hconsistent, padding, congrArg (· ++ padding) (hfront.eq_writeRow (by decide))⟩
      · cases h
    · cases h
  · rintro ⟨hconsistent, padding, rfl⟩
    have hread := RawImage.read_eq_ok_iff.mpr
      ⟨padding, RawImage.readRow_append (RawImage.size_data_lt hconsistent) padding⟩
    have hwritten : (Encodable.read .fixedWidth (Encodable.write .fixedWidth image ++ padding) :
      Except ReadFault RawImage) = .ok image := hread
    rw [readImage, hwritten]
    exact if_pos hconsistent

/-! ### Payloads -/

namespace Payload

/-- Octets that hold a payload: a text and octets are themselves, a structured value stands behind
the tag of an encoding, and anything may follow an image. -/
inductive Held : ByteArray → Payload → Prop
  | text (words : String) : Held words.toUTF8 (.text words)
  | binary (bytes : ByteArray) : Held bytes (.binary bytes)
  | struct (encoding : Encoding) (body : ByteArray) (value : Json.Value)
      (hread : Json.Value.decode encoding body = .ok value) :
      Held ([encoding.tag].toByteArray ++ body) (.struct value)
  | rawImage (image : RawImage) (padding : ByteArray) (hconsistent : image.isConsistent = true) :
      Held (Encodable.write .fixedWidth image ++ padding) (.rawImage image)

variable {kind : PayloadKind} {bytes : ByteArray} {payload : Payload}

/-- A payload is read as a payload of its own kind, from octets that hold it. -/
theorem read_eq_ok_iff :
    read kind bytes = .ok payload ↔ payload.kind = kind ∧ Held bytes payload := by
  constructor
  · intro h
    cases kind with
    | text =>
      obtain ⟨words, hread, rfl⟩ := map_eq_ok_iff.mp h
      obtain rfl := readText_eq_ok_iff.mp hread
      exact ⟨rfl, .text words⟩
    | binary =>
      obtain rfl := Except.ok.inj h
      exact ⟨rfl, .binary bytes⟩
    | struct =>
      obtain ⟨value, hread, rfl⟩ := map_eq_ok_iff.mp h
      obtain ⟨encoding, body, rfl, hvalue⟩ := readStruct_eq_ok_iff.mp hread
      exact ⟨rfl, .struct encoding body value hvalue⟩
    | rawImage =>
      obtain ⟨image, hread, rfl⟩ := map_eq_ok_iff.mp h
      obtain ⟨hconsistent, padding, rfl⟩ := readImage_eq_ok_iff.mp hread
      exact ⟨rfl, .rawImage image padding hconsistent⟩
  · rintro ⟨rfl, hheld⟩
    cases hheld with
    | text words => exact map_eq_ok_iff.mpr ⟨words, readText_eq_ok_iff.mpr rfl, rfl⟩
    | binary bytes => rfl
    | struct encoding body value hread =>
      exact map_eq_ok_iff.mpr ⟨value, readStruct_eq_ok_iff.mpr ⟨encoding, body, rfl, hread⟩, rfl⟩
    | rawImage image padding hconsistent =>
      have hread : readImage (Encodable.write .fixedWidth image ++ padding) = .ok image :=
        readImage_eq_ok_iff.mpr ⟨hconsistent, padding, rfl⟩
      simp only [read, Payload.kind, hread, Except.map]

namespace Held

variable {serializer : StandardSerializer}

/-- The tag in front of a structured value is that of an encoding that describes itself. -/
theorem exists_encoding (h : Held bytes payload) (hkind : payload.kind = .struct) :
    ∃ encoding : Encoding, encoding ≠ .fixedWidth ∧ (octets bytes).head? = some encoding.tag := by
  cases h with
  | struct encoding body value hread =>
    refine ⟨encoding, ?_, encoding.head?_tagged body⟩
    rintro rfl
    cases hread
  | text | binary | rawImage => cases hkind

theorem encoding_eq {encoding : Encoding} {body : ByteArray}
    (h : (octets ([encoding.tag].toByteArray ++ body)).head? =
      some serializer.structEncoding.tag) : encoding = serializer.structEncoding := by
  rw [Encoding.head?_tagged] at h
  exact Encoding.tag_inj.mp (Option.some.inj h)

theorem accepts (h : Held bytes payload)
    (hencoding : payload.kind = .struct →
      (octets bytes).head? = some serializer.structEncoding.tag)
    (hsize : serializer.encodedSize payload ≤ serializer.maxPayloadSize) :
    serializer.Accepts payload where
  size_le := by rwa [StandardSerializer.size_bytesOf]
  readable hkind := by
    obtain ⟨encoding, hself, hhead⟩ := h.exists_encoding hkind
    have htag := Option.some.inj (hhead.symm.trans (hencoding hkind))
    rw [← Encoding.tag_inj.mp htag]
    exact StandardSerializer.isSelfDescribing_iff.mpr hself
  consistent := by
    rintro image rfl
    cases h with
    | rawImage image padding hconsistent => exact hconsistent

/-- What is held can be written anew. -/
theorem bytesOf (h : Held bytes payload)
    (hencoding : payload.kind = .struct →
      (octets bytes).head? = some serializer.structEncoding.tag)
    (hexact : payload.Exact serializer.structEncoding) :
    Held (serializer.bytesOf payload) payload := by
  cases h with
  | text words => exact .text words
  | binary bytes => exact .binary bytes
  | struct encoding body value hread =>
    obtain rfl := encoding_eq (hencoding rfl)
    exact .struct _ _ value (Json.Value.decode_encode_of_decode hread hexact)
  | rawImage image padding hconsistent =>
    have hwritten := Held.rawImage image .empty hconsistent
    rwa [ByteArray.append_empty] at hwritten

end Held

/-- Assumes: octets, from wherever, that are read as a payload of a kind. The payload is of that
kind; an image has the data of its pixels and no more, and the tag in front of a structured value is
of an encoding that describes itself. A standard serializer with this encoding and with room for the
payload accepts it, and what it makes of it is read as the same payload, with the same octets if
they are a text or octets. JSON is not asked about numbers with a fraction. -/
theorem serialize_of_read (hread : read kind bytes = .ok payload) :
    payload.kind = kind ∧
    (∀ image, payload = .rawImage image → image.data.size =
      image.width.toNat * image.height.toNat * image.format.pixelSize) ∧
    (kind = .struct → ∃ encoding : Encoding, encoding ≠ .fixedWidth ∧
      (octets bytes).head? = some encoding.tag) ∧
    ∀ serializer : StandardSerializer,
      (kind = .struct → (octets bytes).head? = some serializer.structEncoding.tag) →
      payload.Exact serializer.structEncoding →
      serializer.encodedSize payload ≤ serializer.maxPayloadSize →
      ∃ serialized, serializer.serialize payload = .ok serialized ∧
        read kind serialized.bytes = .ok payload ∧
        (kind = .text ∨ kind = .binary → serialized.bytes = bytes) := by
  obtain ⟨rfl, hheld⟩ := read_eq_ok_iff.mp hread
  refine ⟨rfl, ?_, hheld.exists_encoding, fun serializer hencoding hexact hsize ↦ ?_⟩
  · rintro image rfl
    cases hheld with
    | rawImage image padding hconsistent =>
      exact (RawImage.isConsistent_iff (RawImage.size_data_lt hconsistent)).mp hconsistent
  · refine ⟨_, StandardSerializer.serialize_eq_ok_iff.mpr
      ⟨hheld.accepts hencoding hsize, rfl⟩, ?_, ?_⟩
    · exact read_eq_ok_iff.mpr ⟨rfl, hheld.bytesOf hencoding hexact⟩
    · cases hheld with
      | text | binary => exact fun _ ↦ rfl
      | struct | rawImage => exact fun h ↦ by rcases h with h | h <;> cases h

/-- A map in MessagePack with a length and numbers longer than they need be, with a key that comes
again as an octet string, and with an octet behind it. -/
def unusualOctets : ByteArray :=
  [3, 0xDF, 0, 0, 0, 2, 0xD9, 1, 0x61, 0xC0, 0xC4, 1, 0x61, 0xD1, 0, 5, 0xFF].toByteArray

def unusualValue : Json.Value := .object [("a", .number (.natural 5))]

theorem serialize_of_read_unusual :
    read .struct unusualOctets = .ok (.struct unusualValue) ∧
    ∃ serialized,
      (StandardSerializer.mk 5 .messagePack).serialize (.struct unusualValue) = .ok serialized ∧
      read .struct serialized.bytes = .ok (.struct unusualValue) := by
  have hread : read .struct unusualOctets = .ok (.struct unusualValue) := rfl
  obtain ⟨-, -, -, hwritten⟩ := serialize_of_read hread
  obtain ⟨serialized, hserialize, hback, -⟩ :=
    hwritten ⟨5, .messagePack⟩ (fun _ ↦ rfl) nofun (by decide)
  exact ⟨hread, serialized, hserialize, hback⟩

end Payload

end TypedPacket
