import Mathlib.Algebra.Group.Defs
import TypedPacket.Packet.Header
import TypedPacket.Proofs.FixedWidth
import TypedPacket.Proofs.Json.Record
import TypedPacket.Proofs.Json.Value
import TypedPacket.Proofs.MessagePack.Record
import TypedPacket.Proofs.Result

/-!
# Tagged values are read back

The tag of an encoding is recognized, and what stands behind it is read in that encoding
(`readTagged_tagged`). A record is read back in every encoding (`Recorded.read_write`). A structured
value is read back unless containers are nested in it deeper than the reader of the encoding goes
(`Json.Value.decode_encode`). So a tag never changes a value and is never mistaken for another one
(`Encoding.readTagged_writeTagged`), as long as MessagePack has room for its sizes: of a size 32 bits
are kept before a form is chosen for it, so that a text of `2 ^ 32` octets stands behind the single
octet that announces an empty one (`Encoding.readTagged_overlong`).
-/

set_option autoImplicit false
set_option relaxedAutoImplicit false

namespace TypedPacket

/-! ### Tags -/

namespace Encoding

theorem tag_inj {a b : Encoding} : a.tag = b.tag ↔ a = b := by
  refine ⟨fun h ↦ ?_, congrArg tag⟩
  have hfound := ofTag?_tag a
  rw [h, ofTag?_tag] at hfound
  exact (Option.some.inj hfound).symm

theorem head?_tagged (encoding : Encoding) (body : ByteArray) :
    (octets ([encoding.tag].toByteArray ++ body)).head? = some encoding.tag := by
  rw [octets_append, octets_toByteArray, List.singleton_append, List.head?_cons]

end Encoding

/-- Behind a tag, octets are read in the encoding that the tag names. -/
theorem readTagged_append {α : Type} [Encodable α] (encoding : Encoding) (body : ByteArray) :
    readTagged ([encoding.tag].toByteArray ++ body) =
      (Encodable.read encoding body : Except ReadFault α).map fun value ↦ (value, encoding) := by
  have hone : [encoding.tag].toByteArray.size = 1 := List.size_toByteArray
  have hsize : 0 < ([encoding.tag].toByteArray ++ body).size := by
    rw [ByteArray.size_append, hone]
    omega
  have htag : ([encoding.tag].toByteArray ++ body)[0] = encoding.tag :=
    (ByteArray.getElem_append_left (by omega)).trans rfl
  have hbody : ([encoding.tag].toByteArray ++ body).extract 1
      ([encoding.tag].toByteArray ++ body).size = body :=
    ByteArray.extract_append_eq_right hone.symm ByteArray.size_append
  rw [readTagged, dif_pos hsize, htag, Encoding.ofTag?_tag]
  simp only [hbody]
  cases (Encodable.read encoding body : Except ReadFault α) <;> rfl

theorem readTagged_tagged {α : Type} [Encodable α] (encoding : Encoding) (value : α) :
    readTagged (writeTagged encoding value) =
      (Encodable.read encoding (Encodable.write encoding value) : Except ReadFault α).map
        fun back ↦ (back, encoding) :=
  readTagged_append encoding _

/-- What is read with its encoding stands behind the tag of the encoding. -/
theorem readTagged_eq_ok_iff {α : Type} [Encodable α] {bytes : ByteArray} {value : α}
    {encoding : Encoding} :
    readTagged bytes = .ok (value, encoding) ↔ ∃ body,
      bytes = [encoding.tag].toByteArray ++ body ∧ Encodable.read encoding body = .ok value := by
  constructor
  · intro h
    unfold readTagged at h
    split at h
    · rename_i hsize
      split at h
      · cases h
      · rename_i found hfound
        obtain ⟨back, hread, hback⟩ := bind_eq_ok_iff.mp h
        obtain ⟨rfl, rfl⟩ := Prod.mk.inj (Except.ok.inj hback)
        have htag : found.tag = bytes[0] := beq_iff_eq.mp (List.find?_some
          (p := fun encoding : Encoding ↦ encoding.tag == bytes[0]) hfound)
        refine ⟨bytes.extract 1 bytes.size, octets_inj.mp ?_, hread⟩
        rw [octets_append, octets_toByteArray, octets_extract, htag, ← length_octets,
          List.take_length]
        exact (List.getElem_cons_drop (by rwa [length_octets])).symm
    · cases h
  · rintro ⟨body, rfl, hread⟩
    rw [readTagged_append, hread]
    rfl

/-! ### Records -/

/-- A record that every encoding tells apart from any other: its names are distinct and its fields
and variants can be counted in 32 bits. -/
structure Schema.Portable (schema : Schema) : Prop extends schema.Distinct where
  countable : schema.fields.length < 2 ^ 32
  indexable : ∀ field ∈ schema.fields, FixedWidth.Indexable field.type

/-- A row that an encoding has room for: the fixed-width layout counts in 64 bits and MessagePack in
32, while JSON does not count. -/
def Encoding.HasRoom {fields : List Field} : Encoding → Row fields → Prop
  | .fixedWidth, row => FixedWidth.rowSize row < 2 ^ 64
  | .json, _ => True
  | .messagePack, row => row.Within (2 ^ 32)

instance {fields : List Field} : (encoding : Encoding) → DecidablePred (@encoding.HasRoom fields)
  | .fixedWidth => fun row ↦ inferInstanceAs (Decidable (FixedWidth.rowSize row < 2 ^ 64))
  | .json => fun _ ↦ inferInstanceAs (Decidable True)
  | .messagePack => fun row ↦ inferInstanceAs (Decidable (row.Within (2 ^ 32)))

theorem Recorded.read_write {α : Type} [Recorded α] (hschema : (schema α).Portable)
    {encoding : Encoding} {value : α} (hroom : encoding.HasRoom (toRow value)) :
    read encoding (write encoding value) = .ok value := by
  cases encoding with
  | fixedWidth =>
    have hread := FixedWidth.readRow_writeRow hschema.indexable hroom .empty
    rw [ByteArray.append_empty] at hread
    simp only [read, write, hread, ofRow_toRow]
  | json =>
    have hread := Json.readAll_writeRecord hschema.toDistinct (toRow value)
    simp only [read, write, readJson, hread, Except.map, ofRow_toRow]
  | messagePack =>
    have hread := MessagePack.record_writeRecord hschema.countable hschema.types hroom []
    rw [List.append_nil] at hread
    simp only [read, write, hread, ofRow_toRow]

theorem RawImage.portable_schema : RawImage.schema.Portable :=
  ⟨⟨by decide, by decide⟩, by decide, by decide⟩

theorem PacketHeader.portable_schema : PacketHeader.schema.Portable :=
  ⟨⟨by decide, by decide⟩, by decide, by decide⟩

/-! ### Structured values -/

/-- How deep containers are nested at most in what the reader of an encoding takes, plus one. The
fixed-width layout does not tell structured values at all. -/
def Encoding.depthLimit : Encoding → Nat
  | .fixedWidth => 0
  | .json => Json.depthLimit
  | .messagePack => MessagePack.depthLimit

/-- A structured value is read back, or refused if containers are nested too deep in it. JSON alone
may read back another one, for a number with a fraction. -/
theorem Json.Value.decode_encode {encoding : Encoding} {value : Value} (hordered : value.Ordered)
    (hwithin : encoding = .messagePack → value.Within (2 ^ 32)) :
    ∃ back, ((encoding = .json → value.Exact) → back = value) ∧
      (value.depth < encoding.depthLimit → decode encoding (encode encoding value) = .ok back) ∧
      (encoding.depthLimit ≤ value.depth →
        ∃ fault, decode encoding (encode encoding value) = .error fault) := by
  cases encoding with
  | fixedWidth => exact ⟨value, fun _ ↦ rfl, fun h ↦ absurd h (Nat.not_lt_zero _), fun _ ↦ ⟨_, rfl⟩⟩
  | json =>
    obtain ⟨back, hexact, hread, hdeep⟩ := readAll_write hordered
    refine ⟨back, fun h ↦ hexact (h rfl), fun hdepth ↦ ?_, fun hdepth ↦ ?_⟩
    · simp only [decode, encode, readJson, hread (Nat.not_le_of_lt hdepth)]
    · obtain ⟨left, hstop⟩ := hdeep hdepth
      simp only [decode, encode, readJson, hstop, Except.error.injEq, exists_eq']
  | messagePack =>
    have hread := MessagePack.readValue_writeValue hordered (hwithin rfl) []
    rw [List.append_nil] at hread
    refine ⟨value, fun _ ↦ rfl, fun hdepth ↦ ?_, fun hdepth ↦ ?_⟩
    · have hshallow : value.depth < MessagePack.depthLimit := hdepth
      rw [if_pos hshallow] at hread
      simp only [decode, encode, hread]
    · have hdeep : ¬ value.depth < MessagePack.depthLimit := Nat.not_lt_of_le hdepth
      rw [if_neg hdeep] at hread
      simp only [decode, encode, hread, Except.error.injEq, exists_eq']

/-! ### Tagged values -/

/-- A record behind a tag is read back with the encoding. -/
theorem readTagged_record {α : Type} [Recorded α] (hschema : (Recorded.schema α).Portable)
    {encoding : Encoding} {value : α} (hroom : encoding.HasRoom (Recorded.toRow value)) :
    readTagged (writeTagged encoding value) = .ok (value, encoding) := by
  have hread : Encodable.read encoding (Encodable.write encoding value) = .ok value :=
    Recorded.read_write hschema hroom
  rw [readTagged_tagged, hread]
  rfl

/-- What is read of a structured value behind a tag is the value with the encoding, and it is read
if containers are not nested too deep in it. -/
theorem readTagged_value_eq_ok_iff {encoding : Encoding} {value : Json.Value}
    (hordered : value.Ordered) (hexact : encoding = .json → value.Exact)
    (hwithin : encoding = .messagePack → value.Within (2 ^ 32)) {back : Json.Value}
    {detected : Encoding} :
    readTagged (writeTagged encoding value) = .ok (back, detected) ↔
      value.depth < encoding.depthLimit ∧ back = value ∧ detected = encoding := by
  obtain ⟨found, hfound, hshallow, hdeep⟩ := Json.Value.decode_encode hordered hwithin
  obtain rfl := hfound hexact
  have hread : readTagged (writeTagged encoding found) =
      (Json.Value.decode encoding (Json.Value.encode encoding found)).map
        fun back ↦ (back, encoding) := readTagged_tagged encoding found
  rcases Nat.lt_or_ge found.depth encoding.depthLimit with hdepth | hdepth
  · simp only [hread, hshallow hdepth, hdepth, Except.map, Except.ok.injEq, Prod.mk.injEq,
      true_and, eq_comm]
  · obtain ⟨fault, hfault⟩ := hdeep hdepth
    simp only [hread, hfault, Nat.not_lt_of_le hdepth, Except.map, reduceCtorEq, false_and]

namespace Encoding

/-- A value behind the tag of an encoding is never taken for another value nor for one in another
encoding. It is read back if its containers are not nested deeper than the reader goes; an image and
a header always are. JSON is not asked about numbers with a fraction, MessagePack not about what
takes `2 ^ 32` octets or items, and the fixed-width layout not about records of `2 ^ 64` octets. -/
theorem readTagged_writeTagged (encoding : Encoding) :
    (∀ value : Json.Value, value.Ordered → (encoding = .json → value.Exact) →
      (encoding = .messagePack → value.Within (2 ^ 32)) → ∀ (back : Json.Value) (detected : Encoding),
        readTagged (writeTagged encoding value) = .ok (back, detected) ↔
          value.depth < encoding.depthLimit ∧ back = value ∧ detected = encoding) ∧
    (∀ image : RawImage, encoding.HasRoom image.toRow →
      readTagged (writeTagged encoding image) = .ok (image, encoding)) ∧
    ∀ header : PacketHeader, encoding.HasRoom header.toRow →
      readTagged (writeTagged encoding header) = .ok (header, encoding) :=
  ⟨fun _ hordered hexact hwithin _ _ ↦ readTagged_value_eq_ok_iff hordered hexact hwithin,
    fun _ hroom ↦ readTagged_record RawImage.portable_schema hroom,
    fun _ hroom ↦ readTagged_record PacketHeader.portable_schema hroom⟩

/-- A value of two levels with a text beyond ASCII. -/
def sampleValue : Json.Value := .object [("a", .list [.flag true, .null]), ("b", .text "é")]

/-- A header with something in every field. -/
def sampleHeader : PacketHeader :=
  ⟨.struct, some "json", 7, some "left", TextMap.ofList [("lens", "35mm")]⟩

/-- A value, an image of one pixel and a header behind the tag of MessagePack. -/
theorem readTagged_writeTagged_sample :
    readTagged (writeTagged .messagePack sampleValue) = .ok (sampleValue, .messagePack) ∧
    readTagged (writeTagged .messagePack (RawImage.mk 1 1 .gray8 [0xFF].toByteArray)) =
      .ok (RawImage.mk 1 1 .gray8 [0xFF].toByteArray, .messagePack) ∧
    readTagged (writeTagged .messagePack sampleHeader) = .ok (sampleHeader, .messagePack) := by
  obtain ⟨hvalue, himage, hheader⟩ := readTagged_writeTagged .messagePack
  exact ⟨(hvalue _ (by decide) nofun (fun _ ↦ by decide) _ _).mpr ⟨by decide, rfl, rfl⟩,
    himage _ (by decide), hheader _ (by decide)⟩

/-- A text whose size is a multiple of `2 ^ 32` is announced by MessagePack as an empty one. -/
theorem readTagged_text_of_inField_eq_zero {words : String}
    (hwords : MessagePack.inField words.toUTF8.size = 0) :
    readTagged (writeTagged .messagePack (Json.Value.text words)) =
      .ok (Json.Value.text "", .messagePack) := by
  obtain ⟨head, happends, hread⟩ := MessagePack.exists_emitText words
  rw [hwords] at hread
  have hwritten : octets (MessagePack.writeValue (.text words)) = head ++ octets words.toUTF8 :=
    happends.octets_empty
  have hempty : MessagePack.textBody 0 (octets words.toUTF8) = .ok ("", octets words.toUTF8) :=
    MessagePack.textBody_append "" _
  have hdecode : Json.Value.decode .messagePack (Json.Value.encode .messagePack (.text words)) =
      .ok (.text "") := by
    simp only [Json.Value.decode, Json.Value.encode, hwritten, MessagePack.readValue,
      MessagePack.depthLimit, MessagePack.value, hread, hempty, bind, Except.bind, Except.map]
  exact (readTagged_tagged _ _).trans (congrArg (Except.map _) hdecode)

/-- A text of so many letters. -/
def letters (n : Nat) : String := String.ofList (List.replicate n 'a')

theorem size_letters (n : Nat) : (letters n).toUTF8.size = n := by
  have hsmall : ∀ c ∈ List.replicate n 'a', c.toNat < 128 := fun c hc ↦ by
    rw [List.eq_of_mem_replicate hc]
    decide
  rw [← length_octets, letters, octets_ofList hsmall, ascii, List.length_map,
    List.length_replicate]

/-- In MessagePack a text of `2 ^ 32` letters is read back as an empty text. -/
theorem readTagged_overlong :
    readTagged (writeTagged .messagePack (Json.Value.text (letters (2 ^ 32)))) =
      .ok (Json.Value.text "", .messagePack) ∧
    Json.Value.text "" ≠ Json.Value.text (letters (2 ^ 32)) := by
  have hfield : MessagePack.inField (letters (2 ^ 32)).toUTF8.size = 0 := by
    rw [size_letters, MessagePack.inField, Nat.mod_self]
  refine ⟨readTagged_text_of_inField_eq_zero hfield, fun h ↦ ?_⟩
  have hsize := size_letters (2 ^ 32)
  rw [← Json.Value.text.inj h] at hsize
  exact absurd hsize (by decide)

end Encoding

end TypedPacket
