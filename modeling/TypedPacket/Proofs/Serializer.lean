import TypedPacket.Proofs.Encoding
import TypedPacket.Proofs.Factory

/-!
# What the standard serializer accepts

A payload is well formed if it can be read back in principle: an image holds exactly its pixels, and
a structured value goes into an encoding that describes itself (`Payload.WellFormed`). Its size is
known before it is written (`StandardSerializer.encodedSize`). The standard serializer accepts
exactly what is well formed and within its limit, and of the others it tells what is malformed from
what is merely too large (`StandardSerializer.serialize_exact`).

The data of an image is measured before the image is written. It is smaller than what is written, so
that the first measure never refuses what the second would accept.
-/

set_option autoImplicit false
set_option relaxedAutoImplicit false

namespace TypedPacket

/-- A product that a word of 64 bits does not hold is no number of octets, so that the octets of an
image are its pixels exactly if their numbers are equal. -/
theorem RawImage.isConsistent_iff {image : RawImage} (hdata : image.data.size < 2 ^ 64) :
    image.isConsistent = true ↔
      image.data.size = image.width.toNat * image.height.toNat * image.format.pixelSize := by
  rw [isConsistent, decide_eq_true_iff, expectedSize?, area]
  split
  · rw [Option.some.injEq, eq_comm]
  · rename_i hlarge
    refine iff_of_false nofun fun heq ↦ hlarge ?_
    rwa [← heq]

namespace Payload

/-- An image holds exactly its pixels, and a structured value does not go into the layout that does
not describe itself. -/
def WellFormed (encoding : Encoding) : Payload → Prop
  | .text _ => True
  | .binary _ => True
  | .struct _ => encoding ≠ .fixedWidth
  | .rawImage image =>
    image.data.size = image.width.toNat * image.height.toNat * image.format.pixelSize

instance (encoding : Encoding) : DecidablePred (WellFormed encoding)
  | .text _ => inferInstanceAs (Decidable True)
  | .binary _ => inferInstanceAs (Decidable True)
  | .struct _ => inferInstanceAs (Decidable (encoding ≠ .fixedWidth))
  | .rawImage image => inferInstanceAs (Decidable (image.data.size =
      image.width.toNat * image.height.toNat * image.format.pixelSize))

/-- The type descriptor fits the octets: a text and octets have none; a structured value has the
name of the encoding whose tag comes first; an image is written whole and has the name of its
pixels. -/
def Describes (serialized : SerializedPayload) : Payload → Prop
  | .text _ => serialized.typeDescriptor = none
  | .binary _ => serialized.typeDescriptor = none
  | .struct _ => ∃ encoding : Encoding, (octets serialized.bytes).head? = some encoding.tag ∧
      serialized.typeDescriptor = some encoding.name
  | .rawImage image => serialized.bytes = Encodable.write .fixedWidth image ∧
      serialized.typeDescriptor = some image.format.name

end Payload

namespace StandardSerializer

variable {serializer : StandardSerializer} {payload : Payload}

theorem describes_bytesOf (serializer : StandardSerializer) (payload : Payload) :
    payload.Describes
      ⟨payload.kind, serializer.descriptorOf payload, serializer.bytesOf payload⟩ := by
  cases payload with
  | text value => exact rfl
  | binary value => exact rfl
  | struct value =>
    exact ⟨serializer.structEncoding, serializer.structEncoding.head?_tagged _, rfl⟩
  | rawImage image => exact ⟨rfl, rfl⟩

/-! ### Well-formed payloads -/

theorem isSelfDescribing_iff {encoding : Encoding} :
    encoding.isSelfDescribing = true ↔ encoding ≠ .fixedWidth := by
  cases encoding <;> decide

section Counted

/-! A word of 64 bits counts the octets of an image, as of any octets that there are. -/

variable (hdata : ∀ image, payload = .rawImage image → image.data.size < 2 ^ 64)

include hdata

/-- A payload is accepted exactly if it is well formed and within the limit. -/
theorem accepts_iff :
    serializer.Accepts payload ↔
      payload.WellFormed serializer.structEncoding ∧
        serializer.encodedSize payload ≤ serializer.maxPayloadSize := by
  rw [← size_bytesOf]
  constructor
  · rintro ⟨hsize, hreadable, hconsistent⟩
    refine ⟨?_, hsize⟩
    cases payload with
    | text value => trivial
    | binary value => trivial
    | struct value => exact isSelfDescribing_iff.mp (hreadable rfl)
    | rawImage image => exact (RawImage.isConsistent_iff (hdata _ rfl)).mp (hconsistent _ rfl)
  · rintro ⟨hwell, hsize⟩
    cases payload with
    | text value => exact ⟨hsize, nofun, nofun⟩
    | binary value => exact ⟨hsize, nofun, nofun⟩
    | struct value => exact ⟨hsize, fun _ ↦ isSelfDescribing_iff.mpr hwell, nofun⟩
    | rawImage image =>
      refine ⟨hsize, nofun, ?_⟩
      rintro _ ⟨⟩
      exact (RawImage.isConsistent_iff (hdata _ rfl)).mpr hwell

/-- A payload that is well formed is refused only for its size. -/
theorem Refuses.code_eq {status : Status} (h : serializer.Refuses payload status)
    (hwell : payload.WellFormed serializer.structEncoding) :
    status.code = .resourceExhausted := by
  cases h with
  | tooLarge _ size _ hsize hstatus => exact code_of_checkSize hstatus
  | untyped value hencoding => cases hencoding.symm.trans (isSelfDescribing_iff.mpr hwell)
  | inconsistent image himage =>
    cases himage.symm.trans ((RawImage.isConsistent_iff (hdata _ rfl)).mpr hwell)

/-- A payload that is not well formed is refused as such before anything is measured. -/
theorem serialize_of_not_wellFormed
    (hill : ¬ payload.WellFormed serializer.structEncoding) :
    ∃ status, serializer.serialize payload = .error status ∧ status.code = .invalidArgument := by
  cases payload with
  | text value => exact absurd trivial hill
  | binary value => exact absurd trivial hill
  | struct value =>
    have hencoding : serializer.structEncoding.isSelfDescribing = false :=
      Bool.eq_false_iff.mpr fun h ↦ hill (isSelfDescribing_iff.mp h)
    refine ⟨untypedStatus, ?_, rfl⟩
    simp only [serialize, hencoding, Bool.false_eq_true, if_false]
    rfl
  | rawImage image =>
    have himage : image.isConsistent = false :=
      Bool.eq_false_iff.mpr fun h ↦ hill ((RawImage.isConsistent_iff (hdata _ rfl)).mp h)
    refine ⟨inconsistent image, ?_, rfl⟩
    simp only [serialize, himage, Bool.false_eq_true, if_false]

end Counted

/-! ### Exactness -/

/-- Assumes: an image whose octets a word of 64 bits counts. The standard serializer accepts a
payload exactly if it is well formed and within the limit. What it gives has the kind of the
payload, as many octets as the payload takes, and the type descriptor that fits them. A payload that
is not well formed is an invalid argument, whatever its size; one that is well formed and too large
exhausts the resources. -/
theorem serialize_exact (serializer : StandardSerializer) (payload : Payload)
    (hdata : ∀ image, payload = .rawImage image → image.data.size < 2 ^ 64) :
    ((∃ serialized, serializer.serialize payload = .ok serialized) ↔
      payload.WellFormed serializer.structEncoding ∧
        serializer.encodedSize payload ≤ serializer.maxPayloadSize) ∧
    (∀ serialized, serializer.serialize payload = .ok serialized →
      serialized.kind = payload.kind ∧
      serialized.bytes.size = serializer.encodedSize payload ∧
      serialized.bytes.size ≤ serializer.maxPayloadSize ∧ payload.Describes serialized) ∧
    (¬ payload.WellFormed serializer.structEncoding →
      ∃ status, serializer.serialize payload = .error status ∧
        status.code = .invalidArgument) ∧
    (payload.WellFormed serializer.structEncoding →
      serializer.maxPayloadSize < serializer.encodedSize payload →
        ∃ status, serializer.serialize payload = .error status ∧
          status.code = .resourceExhausted) := by
  refine ⟨?_, fun serialized hserialize ↦ ?_, serialize_of_not_wellFormed hdata,
    fun hwell hlarge ↦ ?_⟩
  · rw [← accepts_iff hdata]
    simp only [serialize_eq_ok_iff, exists_and_left, exists_eq, and_true]
  · obtain ⟨haccepts, rfl⟩ := serialize_eq_ok_iff.mp hserialize
    exact ⟨rfl, serializer.size_bytesOf payload, haccepts.size_le,
      serializer.describes_bytesOf payload⟩
  · rcases serializer.answers payload with ⟨haccepts, -⟩ | ⟨status, hrefuses, hserialize⟩
    · exact absurd ((accepts_iff hdata).mp haccepts).2 (Nat.not_le.mpr hlarge)
    · exact ⟨status, hserialize, hrefuses.code_eq hdata hwell⟩

/-- An image of two pixels that just fits and one that does not, and the largest dimensions there
are, of which no word counts the octets. -/
theorem serialize_exact_pixels :
    let image : RawImage := ⟨2, 1, .rgb24, [1, 2, 3, 4, 5, 6].toByteArray⟩
    let vast : RawImage := ⟨0xFFFFFFFF, 0xFFFFFFFF, .rgba32, .empty⟩
    (∃ serialized, (StandardSerializer.mk 26 .json).serialize (.rawImage image) =
      .ok serialized) ∧
    (∃ status, (StandardSerializer.mk 25 .json).serialize (.rawImage image) = .error status ∧
      status.code = .resourceExhausted) ∧
    ∃ status, (StandardSerializer.mk 0 .json).serialize (.rawImage vast) = .error status ∧
      status.code = .invalidArgument := by
  intro image vast
  have himage : ∀ other, Payload.rawImage image = .rawImage other → other.data.size < 2 ^ 64 := by
    rintro _ ⟨⟩
    decide
  have hvast : ∀ other, Payload.rawImage vast = .rawImage other → other.data.size < 2 ^ 64 := by
    rintro _ ⟨⟩
    decide
  obtain ⟨hfits, -, -, -⟩ := serialize_exact (.mk 26 .json) (.rawImage image) himage
  obtain ⟨-, -, -, hlarge⟩ := serialize_exact (.mk 25 .json) (.rawImage image) himage
  obtain ⟨-, -, hill, -⟩ := serialize_exact (.mk 0 .json) (.rawImage vast) hvast
  have hpixels : (Payload.rawImage image).WellFormed .json := by decide
  have hnone : ¬ (Payload.rawImage vast).WellFormed .json := by decide
  exact ⟨hfits.mpr ⟨hpixels, by decide⟩, hlarge hpixels (by decide), hill hnone⟩

end StandardSerializer

end TypedPacket
