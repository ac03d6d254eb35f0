import TypedPacket.Config.Validation
import TypedPacket.Proofs.Factory
import TypedPacket.Proofs.Stream.Peers

/-!
# A valid configuration delivers what it builds

Validation ties the limits of a configuration together (`Config.Coherent`): what its factory builds
is within the limit of its frames, and that within the limit of all frames. So whatever is built can
be sent with the wire options of the configuration, and arrives at an end with these options as well
as at one that only knows the limit of all frames (`Config.delivers`). Without options for a packet
a build depends on the payload alone: the default series is allowed, structured values are written
in an encoding that can be read back, and the header has a size that is far from the largest one.
-/

set_option autoImplicit false
set_option relaxedAutoImplicit false

namespace TypedPacket

namespace Config

/-! ### What validation makes sure of -/

/-- The limits of a configuration are in order, and its factory can build. -/
structure Coherent (config : Config) : Prop where
  payload_le_frame : config.factory.maxPayloadSize.toNat ≤ config.wire.maxFramePayload.toNat
  frame_le : config.wire.maxFramePayload.toNat ≤ maxPayloadSize
  readable : config.factory.structFormat.isSelfDescribing = true
  series : checkSeries config.factory.defaultSeries = .ok ()

variable {directoryExists : String → Bool} {config : Config} {compressors : Compressors}
  {clock : Clock} {options : PacketOptions} {payload : Payload} {packet : Packet}

theorem coherent (hvalid : config.findings directoryExists = []) : config.Coherent := by
  obtain ⟨hfactory, hwire, -, hbeyond⟩ := (findings_eq_nil_iff _ _).mp hvalid
  obtain ⟨-, hreadable, hseries⟩ := (FactoryConfig.findings_eq_nil_iff _).mp hfactory
  obtain ⟨⟨-, hframe⟩, -⟩ := (WireConfig.findings_eq_nil_iff _).mp hwire
  exact ⟨hbeyond, hframe, hreadable, hseries⟩

/-- The payload of what is built is within the limit of the serializer. -/
theorem size_payload_le
    (hbuild : (config.factory.factory.build clock options payload).1 = .ok packet) :
    packet.payload.size ≤ config.factory.maxPayloadSize.toNat := by
  obtain ⟨serialized, hserialized, -, hassemble⟩ := Factory.build_eq_ok_iff.mp hbuild
  obtain ⟨haccepts, rfl⟩ := StandardSerializer.serialize_eq_ok_iff.mp hserialized
  obtain ⟨-, time, -, -, rfl⟩ := Factory.assemble_eq_ok_iff.mp hassemble
  exact haccepts.size_le

namespace Coherent

/-- What is built is sent and arrives. -/
theorem arrives (h : config.Coherent)
    (hbuild : (config.factory.factory.build clock options payload).1 = .ok packet)
    (hcompress : ∀ kind ∈ config.wire.wireOptions.compression,
      ∃ small, compressors.compress kind packet.payload = .ok small)
    (hrestores : ∀ kind ∈ config.wire.wireOptions.compression,
      compressors.Restores kind packet.payload) :
    ∃ frame, packet.toFrame compressors config.wire.wireOptions = .ok frame ∧
      Packet.ofFrame compressors maxPayloadSize frame = .ok packet ∧
      ∀ rest, Codec.take ⟨compressors, config.wire.wireOptions⟩ (frame ++ rest) =
        (.ok (some packet), rest) := by
  obtain ⟨hversion, hheader⟩ := Factory.sendable_of_build hbuild
  have hframe : packet.payload.size ≤ config.wire.wireOptions.maxPayloadSize :=
    Nat.le_trans (size_payload_le hbuild) h.payload_le_frame
  have hlimit : packet.payload.size ≤ maxPayloadSize := Nat.le_trans hframe h.frame_le
  have hfield : packet.payload.size < 2 ^ 32 := Nat.lt_of_le_of_lt hlimit (by decide)
  let codec : Codec := ⟨compressors, config.wire.wireOptions⟩
  obtain ⟨prepared, hprepared⟩ : ∃ prepared,
      packet.prepare codec.compressors codec.options = .ok prepared :=
    Packet.prepare_isOk hheader hframe hcompress
  have hprepares := Packet.prepares_of_prepare hprepared
  have hopened := Packet.ofFrame_of_prepare hprepared hversion hfield hrestores
    (Nat.le_trans hprepares.sends.size_le hlimit)
  have htaken := Codec.take_append_of_prepare hprepared hversion hfield hrestores
    hprepares.size_body_le
  rw [if_pos hlimit] at hopened
  rw [if_pos hframe] at htaken
  exact ⟨prepared.bytes, Packet.toFrame_eq_ok_iff.mpr ⟨prepared, hprepared, rfl⟩, hopened, htaken⟩

/-- Without options a packet is built of whatever the serializer accepts, once the clock is read. -/
theorem build_default (h : config.Coherent) (time : UInt64) (payload : Payload) :
    (config.factory.serializer.Accepts payload ∧
      ∃ packet, (config.factory.factory.build (.ok time) .default payload).1 = .ok packet) ∨
    ∃ status, config.factory.serializer.Refuses payload status ∧
      (config.factory.factory.build (.ok time) .default payload).1 = .error (.status status) := by
  rcases config.factory.serializer.answers payload with
    ⟨haccepts, hserialized⟩ | ⟨status, hrefuses, hserialized⟩
  · refine .inl ⟨haccepts, ?_⟩
    obtain ⟨captured, hcaptured⟩ : ∃ captured,
        config.factory.factory.captureTime (.ok time) .default = .ok captured := by
      unfold Factory.captureTime
      dsimp only [PacketOptions.default]
      split
      · exact ⟨time, rfl⟩
      · exact ⟨0, rfl⟩
    refine ⟨_, Factory.build_eq_ok_iff.mpr ⟨_, hserialized, rfl,
      Factory.assemble_eq_ok_iff.mpr ⟨h.series, captured, hcaptured, ?_, rfl⟩⟩⟩
    have hdescriptor := config.factory.serializer.size_descriptorOf_le payload
    exact Factory.size_headerOf_le hdescriptor h.series captured
  · refine .inr ⟨status, hrefuses, ?_⟩
    have hrefused : config.factory.factory.serializer payload = .error status := hserialized
    simp only [Factory.build_fst, hrefused]

theorem accepts_iff (h : config.Coherent) (payload : Payload) :
    config.factory.serializer.Accepts payload ↔
      (config.factory.serializer.bytesOf payload).size ≤ config.factory.maxPayloadSize.toNat ∧
        ∀ image, payload = .rawImage image → image.isConsistent = true :=
  ⟨fun haccepts ↦ ⟨haccepts.size_le, haccepts.consistent⟩,
    fun ⟨hsize, hconsistent⟩ ↦ ⟨hsize, fun _ ↦ h.readable, hconsistent⟩⟩

end Coherent

/-! ### Delivery -/

/-- Assumes: a configuration in which nothing is found. What its factory builds can be sent with its
wire options, if the compressor that they ask for does not fail on the payload and restores it; the
frame opens to the packet, and an end with the same options takes the packet from the front of a
buffer. Without options for a packet, and once the clock is read, a packet is built exactly of the
payloads whose octets are within the limit and whose pixels are those of an image: no build fails
for the default series, for the encoding of structured values or for the size of the header. -/
theorem delivers (compressors : Compressors) (hvalid : config.findings directoryExists = []) :
    (∀ clock options payload packet,
      (config.factory.factory.build clock options payload).1 = .ok packet →
      (∀ kind ∈ config.wire.wireOptions.compression,
        ∃ small, compressors.compress kind packet.payload = .ok small) →
      (∀ kind ∈ config.wire.wireOptions.compression,
        compressors.Restores kind packet.payload) →
      ∃ frame, packet.toFrame compressors config.wire.wireOptions = .ok frame ∧
        Packet.ofFrame compressors maxPayloadSize frame = .ok packet ∧
        ∀ rest, Codec.take ⟨compressors, config.wire.wireOptions⟩ (frame ++ rest) =
          (.ok (some packet), rest)) ∧
    ∀ time payload,
      ((∃ packet, (config.factory.factory.build (.ok time) .default payload).1 = .ok packet) ↔
        (config.factory.serializer.bytesOf payload).size ≤ config.factory.maxPayloadSize.toNat ∧
          ∀ image, payload = .rawImage image → image.isConsistent = true) ∧
      ∀ error, (config.factory.factory.build (.ok time) .default payload).1 = .error error →
        (∀ name, error ≠ .status (seriesStatus name)) ∧
        error ≠ .status StandardSerializer.untypedStatus ∧
        ∀ size, error ≠ .unwritable (.headerTooLarge size) := by
  have hcoherent := coherent hvalid
  refine ⟨fun clock options payload packet hbuild hcompress hrestores ↦
    hcoherent.arrives hbuild hcompress hrestores, fun time payload ↦ ?_⟩
  rw [← hcoherent.accepts_iff payload]
  rcases hcoherent.build_default time payload with
    ⟨haccepts, packet, hbuild⟩ | ⟨status, hrefuses, hbuild⟩
  · refine ⟨⟨fun _ ↦ haccepts, fun _ ↦ ⟨packet, hbuild⟩⟩, fun error herror ↦ ?_⟩
    cases hbuild.symm.trans herror
  · refine ⟨⟨fun ⟨packet, hpacket⟩ ↦ ?_, fun haccepts ↦ absurd haccepts hrefuses.not_accepts⟩,
      fun error herror ↦ ?_⟩
    · cases hbuild.symm.trans hpacket
    · obtain rfl := Except.error.inj (hbuild.symm.trans herror)
      refine ⟨fun name heq ↦ ?_, fun heq ↦ ?_, nofun⟩
      · exact hrefuses.ne_seriesStatus name (PacketError.status.inj heq)
      · exact hrefuses.ne_untypedStatus hcoherent.readable (PacketError.status.inj heq)

/-- A configuration that compresses, with a factory that builds packets of up to 48 octets. -/
def tight : Config := ⟨⟨48, .json, false, none⟩, ⟨true, .zstd, 0, 48⟩, .default⟩

/-- What it builds of 48 zero octets is compressed, sent and taken again. -/
theorem delivers_tight :
    tight.findings (fun _ ↦ true) = [] ∧
      ∃ packet frame, (tight.factory.factory.build (.ok 0) .default
          (.binary (Packet.blank 48).payload)).1 = .ok packet ∧
        packet.toFrame .standard tight.wire.wireOptions = .ok frame ∧
        Packet.ofFrame .standard maxPayloadSize frame = .ok packet := by
  have hvalid : tight.findings (fun _ ↦ true) = [] := by decide
  have hbuild : (tight.factory.factory.build (.ok 0) .default
      (.binary (Packet.blank 48).payload)).1 = .ok (Packet.blank 48) := rfl
  obtain ⟨frame, hframe, hopened, -⟩ :=
    (delivers .standard hvalid).1 _ _ _ _ hbuild Packet.compress_blank Packet.restores_blank
  exact ⟨hvalid, _, frame, hbuild, hframe, hopened⟩

end Config

end TypedPacket
