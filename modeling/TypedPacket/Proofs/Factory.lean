import TypedPacket.Factory
import TypedPacket.Proofs.FixedWidth
import TypedPacket.Proofs.Result

/-!
# What factories build

The standard serializer gives the octets of a payload with its kind and type descriptor, provided
that they are within the limit, that structured values are written in an encoding that can be read
back and that an image is consistent (`StandardSerializer.serialize_eq_ok_iff`), and it says which
of these fails (`StandardSerializer.answers`). A factory adds a header: it builds a packet exactly
if the serializer gives octets of the kind that it was asked for, the series is allowed, the capture
time is known and the header fits in a frame (`Factory.build_eq_ok_iff`), so that the packet has a
place on the wire (`Factory.sendable_of_build`); the ends that a build can come to are
`Factory.Ends`.
-/

set_option autoImplicit false
set_option relaxedAutoImplicit false

namespace TypedPacket

/-! ### The standard serializer -/

namespace StandardSerializer

variable {serializer : StandardSerializer} {payload : Payload}

/-- The octets of a payload, whatever their number. -/
def bytesOf (serializer : StandardSerializer) : Payload → ByteArray
  | .text value => value.toUTF8
  | .binary value => value
  | .struct value => writeTagged serializer.structEncoding value
  | .rawImage image => Encodable.write .fixedWidth image

/-- The type descriptor of a payload: the encoding of a structured value, the pixels of an image. -/
def descriptorOf (serializer : StandardSerializer) : Payload → Option String
  | .text _ => none
  | .binary _ => none
  | .struct _ => some serializer.structEncoding.name
  | .rawImage image => some image.format.name

/-- The octets that a payload takes: those of the text, the octets themselves, a tag and the encoded
value, or 20 octets and the data of the image. -/
def encodedSize (serializer : StandardSerializer) : Payload → Nat
  | .text value => value.toUTF8.size
  | .binary value => value.size
  | .struct value => 1 + (Encodable.write serializer.structEncoding value).size
  | .rawImage image => 20 + image.data.size

theorem size_bytesOf (serializer : StandardSerializer) (payload : Payload) :
    (serializer.bytesOf payload).size = serializer.encodedSize payload := by
  cases payload with
  | text value => rfl
  | binary value => rfl
  | struct value =>
    rw [bytesOf, writeTagged, ByteArray.size_append, List.size_toByteArray]
    rfl
  | rawImage image =>
    have hsize : (serializer.bytesOf (.rawImage image)).size =
        FixedWidth.rowSize image.toRow := FixedWidth.size_writeRow image.toRow
    rw [hsize, encodedSize]
    simp only [RawImage.toRow, FixedWidth.rowSize, FixedWidth.size, Width.size]
    omega

/-- A payload that is serialized. -/
structure Accepts (serializer : StandardSerializer) (payload : Payload) : Prop where
  size_le : (serializer.bytesOf payload).size ≤ serializer.maxPayloadSize
  readable : payload.kind = .struct → serializer.structEncoding.isSelfDescribing = true
  consistent : ∀ image, payload = .rawImage image → image.isConsistent = true

/-- The status for a structured value whose encoding cannot be read back. -/
def untypedStatus : Status := ⟨.invalidArgument, PacketError.untypedStructText⟩

/-- Why a payload is not serialized. -/
inductive Refuses (serializer : StandardSerializer) : Payload → Status → Prop
  | tooLarge (payload : Payload) (size : Nat) (status : Status)
      (hsize : serializer.maxPayloadSize < (serializer.bytesOf payload).size)
      (hstatus : serializer.checkSize size = .error status) : Refuses serializer payload status
  | untyped (value : Json.Value) (hencoding : serializer.structEncoding.isSelfDescribing = false) :
      Refuses serializer (.struct value) untypedStatus
  | inconsistent (image : RawImage) (himage : image.isConsistent = false) :
      Refuses serializer (.rawImage image) (inconsistent image)

theorem checkSize_cases (serializer : StandardSerializer) (size : Nat) :
    size ≤ serializer.maxPayloadSize ∧ serializer.checkSize size = .ok () ∨
      serializer.maxPayloadSize < size ∧ ∃ status, serializer.checkSize size = .error status := by
  unfold checkSize
  split
  · rename_i hlong
    exact .inr ⟨hlong, _, rfl⟩
  · rename_i hshort
    exact .inl ⟨Nat.le_of_not_lt hshort, rfl⟩

theorem code_of_checkSize {size : Nat} {status : Status}
    (h : serializer.checkSize size = .error status) : status.code = .resourceExhausted := by
  unfold checkSize at h
  split at h
  · obtain rfl := Except.error.inj h
    rfl
  · cases h

/-- An image takes more octets than its data. -/
theorem size_data_le (serializer : StandardSerializer) (image : RawImage) :
    image.data.size ≤ (serializer.bytesOf (.rawImage image)).size := by
  rw [size_bytesOf]
  exact Nat.le_add_left _ _

/-- What a serializer answers for a payload. -/
def Answers (serializer : StandardSerializer) (payload : Payload) : Prop :=
  serializer.Accepts payload ∧ serializer.serialize payload =
      .ok ⟨payload.kind, serializer.descriptorOf payload, serializer.bytesOf payload⟩ ∨
    ∃ status, serializer.Refuses payload status ∧ serializer.serialize payload = .error status

/-- A payload of which only the size is left to check. -/
theorem answers_of_measured
    (hserialize : serializer.serialize payload =
      (serializer.checkSize (serializer.bytesOf payload).size).map fun _ ↦
        ⟨payload.kind, serializer.descriptorOf payload, serializer.bytesOf payload⟩)
    (hreadable : payload.kind = .struct → serializer.structEncoding.isSelfDescribing = true)
    (hconsistent : ∀ image, payload = .rawImage image → image.isConsistent = true) :
    serializer.Answers payload := by
  rcases serializer.checkSize_cases (serializer.bytesOf payload).size with
    ⟨hsize, hcheck⟩ | ⟨hsize, status, hcheck⟩
  · rw [hcheck] at hserialize
    exact .inl ⟨⟨hsize, hreadable, hconsistent⟩, hserialize⟩
  · rw [hcheck] at hserialize
    exact .inr ⟨status, .tooLarge _ _ _ hsize hcheck, hserialize⟩

/-- A payload is serialized, or refused for its size, its encoding or its pixels. -/
theorem answers (serializer : StandardSerializer) (payload : Payload) :
    serializer.Answers payload := by
  cases payload with
  | text value => exact answers_of_measured rfl nofun nofun
  | binary value => exact answers_of_measured rfl nofun nofun
  | struct value =>
    cases hencoding : serializer.structEncoding.isSelfDescribing with
    | false =>
      refine .inr ⟨_, .untyped value hencoding, ?_⟩
      simp only [serialize, hencoding, Bool.false_eq_true, if_false]
      rfl
    | true =>
      refine answers_of_measured ?_ (fun _ ↦ hencoding) nofun
      simp only [serialize, hencoding, if_true]
      rfl
  | rawImage image =>
    cases himage : image.isConsistent with
    | false =>
      refine .inr ⟨_, .inconsistent image himage, ?_⟩
      simp only [serialize, himage, Bool.false_eq_true, if_false]
    | true =>
      have hwhole := serializer.size_data_le image
      rcases serializer.checkSize_cases image.data.size with
        ⟨hdata, hcheck⟩ | ⟨hdata, status, hcheck⟩
      · refine answers_of_measured ?_ nofun ?_
        · simp only [serialize, himage, hcheck, if_true]
          rfl
        · rintro _ ⟨⟩
          exact himage
      · refine .inr ⟨status, .tooLarge _ _ _ (Nat.lt_of_lt_of_le hdata hwhole) hcheck, ?_⟩
        simp only [serialize, himage, hcheck, if_true, bind, Except.bind]

theorem Refuses.not_accepts {status : Status} (h : serializer.Refuses payload status) :
    ¬ serializer.Accepts payload := by
  intro haccepts
  cases h with
  | tooLarge _ _ _ hsize => exact absurd haccepts.size_le (Nat.not_le.mpr hsize)
  | untyped value hencoding =>
    rw [haccepts.readable rfl] at hencoding
    cases hencoding
  | inconsistent image himage =>
    rw [haccepts.consistent image rfl] at himage
    cases himage

/-! The statuses for a series, an encoding and an image are told apart by the first character of
their messages. -/

theorem head_seriesStatus (name : String) :
    (seriesStatus name).message.toList.head? = some 's' := by
  simp [seriesStatus]

theorem head_untypedStatus : untypedStatus.message.toList.head? = some 'B' := by
  simp [untypedStatus, PacketError.untypedStructText]

theorem head_inconsistent (image : RawImage) :
    (inconsistent image).message.toList.head? = some 'R' := by
  simp [inconsistent, imageDimensionsText]

theorem Refuses.ne_seriesStatus {status : Status} (h : serializer.Refuses payload status)
    (name : String) : status ≠ seriesStatus name := by
  intro heq
  have hcode : status.code = .invalidArgument := heq ▸ rfl
  have hhead : status.message.toList.head? = some 's' := heq ▸ head_seriesStatus name
  cases h with
  | tooLarge _ size _ hsize hstatus => cases (code_of_checkSize hstatus).symm.trans hcode
  | untyped value hencoding => cases head_untypedStatus.symm.trans hhead
  | inconsistent image himage => cases (head_inconsistent image).symm.trans hhead

theorem Refuses.ne_untypedStatus {status : Status} (h : serializer.Refuses payload status)
    (hreadable : serializer.structEncoding.isSelfDescribing = true) : status ≠ untypedStatus := by
  intro heq
  have hcode : status.code = .invalidArgument := heq ▸ rfl
  have hhead : status.message.toList.head? = some 'B' := heq ▸ head_untypedStatus
  cases h with
  | tooLarge _ size _ hsize hstatus => cases (code_of_checkSize hstatus).symm.trans hcode
  | untyped value hencoding => cases hreadable.symm.trans hencoding
  | inconsistent image himage => cases (head_inconsistent image).symm.trans hhead

theorem serialize_eq_ok_iff {serialized : SerializedPayload} :
    serializer.serialize payload = .ok serialized ↔
      serializer.Accepts payload ∧
        serialized =
          ⟨payload.kind, serializer.descriptorOf payload, serializer.bytesOf payload⟩ := by
  rcases serializer.answers payload with ⟨haccepts, hgiven⟩ | ⟨status, hrefuses, hgiven⟩
  · simp only [hgiven, Except.ok.injEq, haccepts, true_and, eq_comm]
  · simp only [hgiven, reduceCtorEq, hrefuses.not_accepts, false_and]

theorem size_descriptorOf_le (serializer : StandardSerializer)
    (payload : Payload) : ∀ name ∈ serializer.descriptorOf payload, name.toUTF8.size ≤ 7 := by
  cases payload with
  | text value => exact nofun
  | binary value => exact nofun
  | struct value =>
    rintro _ ⟨⟩
    cases serializer.structEncoding <;> decide
  | rawImage image =>
    rintro _ ⟨⟩
    cases image.format <;> decide

end StandardSerializer

/-! ### Factories -/

theorem size_le_of_checkSeries {series : Option String} (h : checkSeries series = .ok ()) :
    ∀ name ∈ series, name.toUTF8.size ≤ maxSeriesSize := by
  rintro name ⟨⟩
  rw [checkSeries] at h
  split at h
  · cases h
  · rename_i hsize
    exact Nat.le_of_not_lt fun hlong ↦ hsize (.inr hlong)

/-- A packet that the wire format has a place for, if its body is small enough. -/
structure Packet.Sendable (packet : Packet) : Prop where
  version_eq : packet.version = FramePrefix.version
  size_header_le : packet.header.size ≤ PacketHeader.maxSize

namespace Factory

variable {factory : Factory} {clock : Clock} {options : PacketOptions}

/-- The header of a packet with a capture time. -/
def headerOf (factory : Factory) (options : PacketOptions) (serialized : SerializedPayload)
    (time : UInt64) : PacketHeader :=
  ⟨serialized.kind, serialized.typeDescriptor, time,
    options.series.or factory.settings.defaultSeries, options.metadata⟩

/-- A packet is put together exactly if its series is allowed, its capture time is known and its
header fits in a frame. -/
theorem assemble_eq_ok_iff {serialized : SerializedPayload} {packet : Packet} :
    factory.assemble clock options serialized = .ok packet ↔
      checkSeries (options.series.or factory.settings.defaultSeries) = .ok () ∧
        ∃ time, factory.captureTime clock options = .ok time ∧
          (factory.headerOf options serialized time).size ≤ PacketHeader.maxSize ∧
          packet = .current (factory.headerOf options serialized time) serialized.bytes := by
  unfold assemble
  constructor
  · intro h
    obtain ⟨⟨⟩, hseries, h⟩ := bind_eq_ok_iff.mp h
    obtain ⟨time, htime, h⟩ := bind_eq_ok_iff.mp h
    obtain ⟨⟨⟩, hsize, h⟩ := bind_eq_ok_iff.mp h
    exact ⟨hseries, time, htime, PacketHeader.checkSize_eq_ok_iff.mp hsize,
      (Except.ok.inj h).symm⟩
  · rintro ⟨hseries, time, htime, hsize, rfl⟩
    refine bind_eq_ok_iff.mpr ⟨(), hseries, bind_eq_ok_iff.mpr ⟨time, htime, ?_⟩⟩
    exact bind_eq_ok_iff.mpr ⟨(), PacketHeader.checkSize_eq_ok_iff.mpr hsize, rfl⟩

/-- Without metadata a header is far from the largest one. -/
theorem size_headerOf_le {serialized : SerializedPayload}
    (hdescriptor : ∀ name ∈ serialized.typeDescriptor, name.toUTF8.size ≤ 7)
    (hseries : checkSeries factory.settings.defaultSeries = .ok ()) (time : UInt64) :
    (factory.headerOf .default serialized time).size ≤ PacketHeader.maxSize := by
  have hdescriptorSize := FixedWidth.size_optionalText_le hdescriptor
  have hseriesSize := FixedWidth.size_optionalText_le (size_le_of_checkSeries hseries)
  have hsize : (factory.headerOf .default serialized time).size =
      4 + (FixedWidth.size .optionalText serialized.typeDescriptor +
        (8 + (FixedWidth.size .optionalText factory.settings.defaultSeries + 8))) := rfl
  rw [hsize]
  simp only [maxSeriesSize, PacketHeader.maxSize] at hseriesSize ⊢
  omega

/-- The result of a build without its notices. -/
theorem build_fst (factory : Factory) (clock : Clock) (options : PacketOptions)
    (payload : Payload) :
    (factory.build clock options payload).1 =
      match factory.serializer payload with
      | .error status => .error (.status status)
      | .ok serialized =>
        if serialized.kind ≠ payload.kind then
          .error (.status (kindStatus serialized.kind payload.kind))
        else factory.assemble clock options serialized := by
  unfold build
  cases factory.serializer payload with
  | error status => rfl
  | ok serialized =>
    dsimp only
    split
    · rfl
    · cases factory.assemble clock options serialized <;> rfl

theorem build_eq_ok_iff {payload : Payload} {packet : Packet} :
    (factory.build clock options payload).1 = .ok packet ↔
      ∃ serialized, factory.serializer payload = .ok serialized ∧
        serialized.kind = payload.kind ∧
        factory.assemble clock options serialized = .ok packet := by
  rw [build_fst]
  cases factory.serializer payload with
  | error status => simp only [reduceCtorEq, false_and, exists_false]
  | ok serialized =>
    simp only [Except.ok.injEq, exists_eq_left']
    split
    · rename_i hkind
      simp only [reduceCtorEq, hkind, false_and]
    · rename_i hkind
      simp only [Decidable.not_not.mp hkind, true_and]

theorem sendable_of_build {payload : Payload} {packet : Packet}
    (h : (factory.build clock options payload).1 = .ok packet) : packet.Sendable := by
  obtain ⟨serialized, -, -, hassemble⟩ := build_eq_ok_iff.mp h
  obtain ⟨-, time, -, hsize, rfl⟩ := assemble_eq_ok_iff.mp hassemble
  exact ⟨rfl, hsize⟩

/-! ### How a build ends -/

/-- The serializer gives octets of the kind that it is asked for. -/
def serves (factory : Factory) (payload : Payload) : Bool :=
  match factory.serializer payload with
  | .ok serialized => decide (serialized.kind = payload.kind)
  | .error _ => false

/-- The series of a packet has a name that is empty or too long. -/
def misnames (factory : Factory) (options : PacketOptions) : Bool :=
  (options.series.or factory.settings.defaultSeries).any fun name ↦
    decide (name.utf8ByteSize = 0 ∨ maxSeriesSize < name.utf8ByteSize)

theorem checkSeries_cases (factory : Factory) (options : PacketOptions) :
    factory.misnames options = false ∧
        checkSeries (options.series.or factory.settings.defaultSeries) = .ok () ∨
      factory.misnames options = true ∧
        ∃ name, options.series.or factory.settings.defaultSeries = some name ∧
          checkSeries (some name) = .error (.status (seriesStatus name)) := by
  unfold misnames
  cases options.series.or factory.settings.defaultSeries with
  | none => exact .inl ⟨rfl, rfl⟩
  | some name =>
    simp only [Option.any_some, decide_eq_false_iff_not, decide_eq_true_iff, checkSeries]
    split
    · rename_i hsize
      exact .inr ⟨hsize, name, rfl, if_pos hsize⟩
    · rename_i hsize
      exact .inl ⟨hsize, rfl⟩

/-- What stands in the way of a packet whose payload is serialized: the name of its series, else the
clock, else the size of its header. -/
inductive Obstructs (factory : Factory) (clock : Clock) (options : PacketOptions) :
    PacketError → Prop
  | series (name : String) (hmisnames : factory.misnames options = true)
      (hname : options.series.or factory.settings.defaultSeries = some name) :
      Obstructs factory clock options (.status (seriesStatus name))
  | clock (error : PacketError) (hmisnames : factory.misnames options = false)
      (hclock : clock = .error error) : Obstructs factory clock options error
  | header (size : Nat) (hmisnames : factory.misnames options = false) :
      Obstructs factory clock options (.unwritable (.headerTooLarge size))

theorem obstructs_of_assemble {serialized : SerializedPayload} {error : PacketError}
    (h : factory.assemble clock options serialized = .error error) :
    factory.Obstructs clock options error := by
  unfold assemble at h
  rcases factory.checkSeries_cases options with
    ⟨hmisnames, hseries⟩ | ⟨hmisnames, name, hname, hseries⟩
  · rcases bind_eq_error_iff.mp h with hfails | ⟨⟨⟩, -, h⟩
    · cases hseries.symm.trans hfails
    rcases bind_eq_error_iff.mp h with htime | ⟨time, -, h⟩
    · unfold captureTime at htime
      split at htime
      · cases htime
      · split at htime
        · exact .clock error hmisnames htime
        · cases htime
    rcases bind_eq_error_iff.mp h with hsize | ⟨⟨⟩, -, h⟩
    · unfold PacketHeader.checkSize at hsize
      split at hsize
      · cases hsize
        exact .header _ hmisnames
      · cases hsize
    · cases h
  · rw [hname] at h
    rcases bind_eq_error_iff.mp h with hfails | ⟨⟨⟩, hallowed, -⟩
    · cases hseries.symm.trans hfails
      exact .series name hmisnames hname
    · cases hseries.symm.trans hallowed

/-- How a build ends, and what there is to notice. -/
inductive Ends (factory : Factory) (clock : Clock) (options : PacketOptions) (payload : Payload) :
    Except PacketError Packet × List Notice → Prop
  | rejected (status : Status) (hserializer : factory.serializer payload = .error status) :
      Ends factory clock options payload
        (.error (.status status), [.rejected payload.kind status])
  | kindChanged (serialized : SerializedPayload)
      (hserializer : factory.serializer payload = .ok serialized)
      (hkind : serialized.kind ≠ payload.kind) :
      Ends factory clock options payload
        (.error (.status (kindStatus serialized.kind payload.kind)), [.kindChanged])
  | obstructed (error : PacketError) (hserves : factory.serves payload = true)
      (hobstructs : factory.Obstructs clock options error) :
      Ends factory clock options payload (.error error, [])
  | built (packet : Packet) (hserves : factory.serves payload = true)
      (hmisnames : factory.misnames options = false) :
      Ends factory clock options payload (.ok packet, [.built payload.kind packet.payload.size])

theorem misnames_of_assemble {serialized : SerializedPayload} {packet : Packet}
    (h : factory.assemble clock options serialized = .ok packet) :
    factory.misnames options = false := by
  rcases factory.checkSeries_cases options with ⟨hmisnames, -⟩ | ⟨-, name, hname, hseries⟩
  · exact hmisnames
  · have hallowed := (assemble_eq_ok_iff.mp h).1
    rw [hname] at hallowed
    cases hseries.symm.trans hallowed

theorem ends (factory : Factory) (clock : Clock) (options : PacketOptions) (payload : Payload) :
    factory.Ends clock options payload (factory.build clock options payload) := by
  unfold build
  cases hserializer : factory.serializer payload with
  | error status => exact .rejected status hserializer
  | ok serialized =>
    dsimp only
    split
    · rename_i hkind
      exact .kindChanged serialized hserializer hkind
    · rename_i hkind
      have hserves : factory.serves payload = true := by
        simpa only [serves, hserializer, decide_eq_true_iff] using Decidable.not_not.mp hkind
      cases hassemble : factory.assemble clock options serialized with
      | error error => exact .obstructed error hserves (obstructs_of_assemble hassemble)
      | ok packet => exact .built packet hserves (misnames_of_assemble hassemble)

end Factory

end TypedPacket
