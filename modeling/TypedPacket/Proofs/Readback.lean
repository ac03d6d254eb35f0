import Mathlib.Algebra.Group.Defs
import TypedPacket.Proofs.Encoding
import TypedPacket.Proofs.Factory
import TypedPacket.Proofs.Frame.Lengths

/-!
# Reading what a factory built

Texts, octet strings and images are read back from the packets that the standard serializer makes of
them. A structured value is read back if its containers are not nested deeper than the reader of its
encoding goes (`Payload.Legible`), which nobody asks before it is written: a factory builds packets
that cannot be read (`Factory.exists_build_unreadable`). What can be read of a packet can be read of
any packet that its frames open to (`Factory.readPayload_build`).
-/

set_option autoImplicit false
set_option relaxedAutoImplicit false

namespace TypedPacket

/-! ### Payloads -/

namespace Payload

/-- The objects of a structured value are maps. -/
def Ordered : Payload → Prop
  | .struct value => value.Ordered
  | _ => True

/-- A structured value that JSON has to hold has no number with a fraction. -/
def Exact (encoding : Encoding) : Payload → Prop
  | .struct value => encoding = .json → value.Exact
  | _ => True

/-- The containers of a structured value are not nested too deep for the reader of the encoding. -/
def Legible (encoding : Encoding) : Payload → Prop
  | .struct value => value.depth < encoding.depthLimit
  | _ => True

end Payload

namespace StandardSerializer

variable {serializer : StandardSerializer} {payload : Payload}

/-- What the serializer makes of a payload is read if the payload is legible, as the payload if it
is exact, and is refused if it is not legible. -/
def Returns (serializer : StandardSerializer) (payload : Payload) : Prop :=
  ∃ back, (payload.Exact serializer.structEncoding → back = payload) ∧
    (payload.Legible serializer.structEncoding →
      Payload.read payload.kind (serializer.bytesOf payload) = .ok back) ∧
    (¬ payload.Legible serializer.structEncoding →
      ∃ error, Payload.read payload.kind (serializer.bytesOf payload) = .error error)

theorem returns_of_read (hlegible : payload.Legible serializer.structEncoding)
    (hread : Payload.read payload.kind (serializer.bytesOf payload) = .ok payload) :
    serializer.Returns payload :=
  ⟨payload, fun _ ↦ rfl, fun _ ↦ hread, fun h ↦ absurd hlegible h⟩

theorem returns_struct {value : Json.Value} (hordered : value.Ordered)
    (hsize : (serializer.bytesOf (.struct value)).size < 2 ^ 32) :
    serializer.Returns (.struct value) := by
  have hwithin : serializer.structEncoding = .messagePack → value.Within (2 ^ 32) := by
    intro hencoding
    simp only [bytesOf, writeTagged, ByteArray.size_append, hencoding] at hsize
    exact MessagePack.within_of_size (Nat.lt_of_le_of_lt (Nat.le_add_left _ _) hsize)
  obtain ⟨back, hexact, hshallow, hdeep⟩ := Json.Value.decode_encode hordered hwithin
  have htagged : readTagged (writeTagged serializer.structEncoding value) =
      (Json.Value.decode serializer.structEncoding
        (Json.Value.encode serializer.structEncoding value)).map
          fun back ↦ (back, serializer.structEncoding) := readTagged_tagged _ value
  refine ⟨.struct back, fun h ↦ congrArg _ (hexact h), fun hlegible ↦ ?_, fun hlegible ↦ ?_⟩
  · simp only [Payload.read, Payload.kind, bytesOf, readStruct, htagged, hshallow hlegible,
      Except.map]
  · obtain ⟨fault, hfault⟩ := hdeep (Nat.le_of_not_lt hlegible)
    simp only [Payload.read, Payload.kind, bytesOf, readStruct, htagged, hfault, Except.map,
      Except.error.injEq, exists_eq']

theorem returns_rawImage {image : RawImage} (hconsistent : image.isConsistent = true)
    (hsize : (serializer.bytesOf (.rawImage image)).size < 2 ^ 32) :
    serializer.Returns (.rawImage image) := by
  have hroom : Encoding.fixedWidth.HasRoom image.toRow := by
    have hrow : (FixedWidth.writeRow image.toRow).size < 2 ^ 32 := hsize
    rw [FixedWidth.size_writeRow] at hrow
    exact Nat.lt_trans hrow (by decide)
  have hback : (Encodable.read .fixedWidth (Encodable.write .fixedWidth image) :
      Except ReadFault RawImage) = .ok image := Recorded.read_write RawImage.portable_schema hroom
  refine returns_of_read trivial ?_
  simp only [Payload.read, Payload.kind, bytesOf, readImage, hback, hconsistent, if_true,
    Except.map]

/-- Every payload that is accepted is read back, unless it is nested too deep. -/
theorem returns_of_accepts (haccepts : serializer.Accepts payload) (hordered : payload.Ordered)
    (hsize : (serializer.bytesOf payload).size < 2 ^ 32) : serializer.Returns payload := by
  cases payload with
  | text words =>
    have hread : readText words.toUTF8 = .ok words := by rw [readText, Utf8.decode_toUTF8]
    refine returns_of_read trivial ?_
    simp only [Payload.read, Payload.kind, bytesOf, hread, Except.map]
  | binary bytes => exact returns_of_read trivial rfl
  | struct value => exact returns_struct hordered hsize
  | rawImage image => exact returns_rawImage (haccepts.consistent image rfl) hsize

end StandardSerializer

/-! ### Packets -/

/-- A frame of a packet opens to the packet or to nothing. -/
theorem Packet.eq_of_ofFrame_toFrame {compressors : Compressors} {options : WireOptions}
    {packet opened : Packet} {frame : ByteArray} {limit : Nat}
    (hframe : packet.toFrame compressors options = .ok frame)
    (hpayload : packet.payload.size < 2 ^ 32)
    (hrestores : ∀ kind ∈ options.compression, compressors.Restores kind packet.payload)
    (hopened : ofFrame compressors limit frame = .ok opened) : opened = packet := by
  obtain ⟨prepared, hprepared, rfl⟩ := toFrame_eq_ok_iff.mp hframe
  obtain ⟨parts, hparts, hbytes, -, -, -⟩ := ofFrame_eq_ok_iff.mp hopened
  have hbody : prepared.body.size ≤ limit := by
    rw [← Prepared.bodySection_of_lt (size_header_of_prepare hprepared), hbytes,
      Prepared.bodySection_bytes hparts]
    exact hparts.bodySize_le
  -- Octets open only with the version that is read, which is the one the packet was written with.
  have hversion : packet.version = FramePrefix.version := by
    rw [← (prepares_of_prepare hprepared).version_eq, ← prepared.octetAt_version, hbytes,
      parts.octetAt_version, hparts.version_eq]
  rw [ofFrame_of_prepare hprepared hversion hpayload hrestores hbody] at hopened
  split at hopened
  · exact (Except.ok.inj hopened).symm
  · cases hopened

namespace Factory

variable {settings : FactorySettings} {serializer : StandardSerializer} {clock : Clock}
  {options : PacketOptions} {payload : Payload} {packet : Packet}

/-- A packet of the standard serializer holds what was made of an accepted payload. -/
theorem eq_of_build_standard
    (hbuild : ((Factory.mk settings serializer.serialize).build clock options payload).1 =
      .ok packet) :
    serializer.Accepts payload ∧ packet.kind = payload.kind ∧
      packet.payload = serializer.bytesOf payload := by
  obtain ⟨serialized, hserialize, -, hassemble⟩ := build_eq_ok_iff.mp hbuild
  obtain ⟨haccepts, rfl⟩ := StandardSerializer.serialize_eq_ok_iff.mp hserialize
  obtain ⟨-, time, -, -, rfl⟩ := assemble_eq_ok_iff.mp hassemble
  exact ⟨haccepts, rfl, rfl⟩

/-- What is read of a built packet is the payload, unless that is too deep to be read. -/
theorem exists_readPayload
    (hbuild : ((Factory.mk settings serializer.serialize).build clock options payload).1 =
      .ok packet)
    (hordered : payload.Ordered) (hsize : packet.payload.size < 2 ^ 32) :
    ∃ back, (payload.Exact serializer.structEncoding → back = payload) ∧
      (payload.Legible serializer.structEncoding → packet.readPayload = .ok back) ∧
      (¬ payload.Legible serializer.structEncoding →
        ∃ error, packet.readPayload = .error error) := by
  obtain ⟨haccepts, hkind, hbytes⟩ := eq_of_build_standard hbuild
  rw [hbytes] at hsize
  rw [Packet.readPayload, hkind, hbytes]
  exact StandardSerializer.returns_of_accepts haccepts hordered hsize

/-- Assumes: a packet that a factory with the standard serializer built, of a payload whose objects
are maps, with fewer than `2 ^ 32` octets. Its payload is read back exactly if it is legible, and
is then the payload that the factory was given. The frames of the packet, where compressors restore
what they compress, open to packets that read alike. -/
theorem readPayload_build
    (hbuild : ((Factory.mk settings serializer.serialize).build clock options payload).1 =
      .ok packet)
    (hordered : payload.Ordered) (hsize : packet.payload.size < 2 ^ 32) :
    ((∃ content, packet.readPayload = .ok content) ↔
      payload.Legible serializer.structEncoding) ∧
    (∀ content, packet.readPayload = .ok content →
      payload.Exact serializer.structEncoding → content = payload) ∧
    ∀ (compressors : Compressors) (wire : WireOptions) (frame : ByteArray) (limit : Nat)
      (opened : Packet), (∀ kind ∈ wire.compression, compressors.Restores kind packet.payload) →
      packet.toFrame compressors wire = .ok frame →
      Packet.ofFrame compressors limit frame = .ok opened →
        opened.readPayload = packet.readPayload := by
  obtain ⟨back, hexact, hread, hfault⟩ := exists_readPayload hbuild hordered hsize
  refine ⟨⟨fun ⟨content, hcontent⟩ ↦ ?_, fun hlegible ↦ ⟨back, hread hlegible⟩⟩, ?_, ?_⟩
  · by_contra hillegible
    obtain ⟨error, herror⟩ := hfault hillegible
    cases herror.symm.trans hcontent
  · intro content hcontent hpayload
    by_cases hlegible : payload.Legible serializer.structEncoding
    · rw [← hexact hpayload]
      exact (Except.ok.inj ((hread hlegible).symm.trans hcontent)).symm
    · obtain ⟨error, herror⟩ := hfault hlegible
      cases herror.symm.trans hcontent
  · intro compressors wire frame limit opened hrestores hframe hopened
    rw [Packet.eq_of_ofFrame_toFrame hframe hsize hrestores hopened]

/-- A packet of a value of two levels, in MessagePack. -/
theorem readPayload_build_sample :
    ∃ packet, ((Factory.mk ⟨false, none⟩ (StandardSerializer.mk 64 .messagePack).serialize).build
        (.ok 0) .default (.struct Encoding.sampleValue)).1 = .ok packet ∧
      packet.readPayload = .ok (.struct Encoding.sampleValue) := by
  have hordered : Encoding.sampleValue.Ordered := by decide
  have hshallow : Encoding.sampleValue.depth < 1024 := by decide
  obtain ⟨packet, hbuild⟩ : ∃ packet,
      ((Factory.mk ⟨false, none⟩ (StandardSerializer.mk 64 .messagePack).serialize).build
        (.ok 0) .default (.struct Encoding.sampleValue)).1 = .ok packet := ⟨_, rfl⟩
  have hsize : packet.payload.size < 2 ^ 32 := by
    obtain ⟨haccepts, -, hbytes⟩ := eq_of_build_standard hbuild
    rw [hbytes]
    exact Nat.lt_of_le_of_lt haccepts.size_le (by decide)
  obtain ⟨hreadable, hcontent, -⟩ := readPayload_build hbuild hordered hsize
  obtain ⟨content, hread⟩ := hreadable.mpr hshallow
  obtain rfl := hcontent content hread nofun
  exact ⟨packet, hbuild, hread⟩

end Factory

/-! ### Deep nesting -/

namespace Json.Value

theorem depth_nestList (n : Nat) : (nestList .null n).depth = n := by
  induction n with
  | zero => rfl
  | succ n ih => rw [nestList, depth, itemsDepth, itemsDepth, ih, Nat.max_zero]

theorem ordered_nestList (n : Nat) : (nestList .null n).Ordered := by
  induction n with
  | zero => trivial
  | succ n ih =>
    refine everywhere_list.mpr ⟨trivial, fun item hitem ↦ ?_⟩
    obtain rfl := List.mem_singleton.mp hitem
    exact ih

theorem size_emit_nestList (n : Nat) (out : ByteArray) :
    ((nestList .null n).emit out).size = out.size + 2 * n + 4 := by
  induction n generalizing out with
  | zero =>
    rw [nestList, emit, ByteArray.size_append]
    rfl
  | succ n ih =>
    rw [nestList, emit, emitItems, ByteArray.size_push, ih, ByteArray.size_push]
    omega

end Json.Value

namespace Factory

/-- Where the limit leaves room for them, a factory packs lists that are nested too deep for the
reader of JSON, in a packet that nobody can read. -/
theorem exists_build_nestList {n limit : Nat} (hdeep : Json.depthLimit ≤ n)
    (hroom : 2 * n + 5 ≤ limit) (hlimit : limit < 2 ^ 32) :
    ∃ packet, ((Factory.mk ⟨false, none⟩ (StandardSerializer.mk limit .json).serialize).build
        (.ok 0) .default (.struct (.nestList .null n))).1 = .ok packet ∧
      ∀ content, packet.readPayload ≠ .ok content := by
  let serializer := StandardSerializer.mk limit .json
  have hbytes : (serializer.bytesOf (.struct (.nestList .null n))).size = 2 * n + 5 := by
    have htext : (Encodable.write Encoding.json (Json.Value.nestList .null n)).size = 2 * n + 4 :=
      (Json.Value.size_emit_nestList n .empty).trans (congrArg (· + 4) (Nat.zero_add _))
    have htag : [Encoding.json.tag].toByteArray.size = 1 := List.size_toByteArray
    rw [StandardSerializer.bytesOf, writeTagged, ByteArray.size_append, htag, htext]
    omega
  have haccepts : serializer.Accepts (.struct (.nestList .null n)) :=
    ⟨hbytes ▸ hroom, fun _ ↦ rfl, by rintro image ⟨⟩⟩
  have hheader : (PacketHeader.mk .struct (some "json") 0 none .empty).size ≤
      PacketHeader.maxSize := by decide
  obtain ⟨packet, hbuild⟩ : ∃ packet, ((Factory.mk ⟨false, none⟩ serializer.serialize).build
      (.ok 0) .default (.struct (.nestList .null n))).1 = .ok packet :=
    ⟨_, build_eq_ok_iff.mpr ⟨_, StandardSerializer.serialize_eq_ok_iff.mpr ⟨haccepts, rfl⟩, rfl,
      assemble_eq_ok_iff.mpr ⟨rfl, 0, rfl, hheader, rfl⟩⟩⟩
  have hsize : packet.payload.size < 2 ^ 32 := by
    rw [(eq_of_build_standard hbuild).2.2]
    exact Nat.lt_of_le_of_lt haccepts.size_le hlimit
  obtain ⟨back, -, -, hfault⟩ := exists_readPayload hbuild (Json.Value.ordered_nestList n) hsize
  obtain ⟨error, herror⟩ := hfault fun hlegible ↦ by
    have hshallow : (Json.Value.nestList .null n).depth < Json.depthLimit := hlegible
    rw [Json.Value.depth_nestList] at hshallow
    exact Nat.not_lt_of_le hdeep hshallow
  exact ⟨packet, hbuild, fun content hcontent ↦ by cases herror.symm.trans hcontent⟩

/-- The standard factory packs 128 lists, one in another, for nobody to read. -/
theorem exists_build_unreadable :
    ∃ packet, ((Factory.mk ⟨false, none⟩ StandardSerializer.default.serialize).build (.ok 0)
        .default (.struct (.nestList .null 128))).1 = .ok packet ∧
      ∀ content, packet.readPayload ≠ .ok content :=
  exists_build_nestList (by decide) (by decide) (by decide)

end Factory

end TypedPacket
