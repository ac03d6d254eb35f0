import TypedPacket.Proofs.Factory
import TypedPacket.Proofs.Stream.Effects

/-!
# Every packet there is can be sent

A packet comes from a factory, with whatever serializer, or from octets: as one frame, from a buffer
or from a closed stream (`Packet.Obtainable`). A factory builds packets of the version of the wire
format, and octets of another version do not open. A factory refuses a header that is too large; a
header that was read is written again in no more octets than it was read from. So every packet has
the version of the wire format and a header that can be encoded (`Packet.Obtainable.sendable`), and
what can still go wrong on the way to a frame is the size of the body alone
(`Packet.Obtainable.toFrame_eq`).
-/

set_option autoImplicit false
set_option relaxedAutoImplicit false

namespace TypedPacket

/-! ### Packets from octets -/

/-- The version is the one that was found in the frame and checked there. -/
theorem Packet.sendable_of_ofFrame {compressors : Compressors} {limit : Nat}
    {bytes : ByteArray} {packet : Packet} (h : ofFrame compressors limit bytes = .ok packet) :
    packet.Sendable := by
  obtain ⟨frame, entries, hframe, rfl⟩ := ofFrame_eq_ok_iff_frames.mp h
  exact ⟨hframe.version_eq.trans hframe.admitted.version_eq,
    Nat.le_trans hframe.size_header_le hframe.admitted.headerSize_le⟩

/-- What is taken from a buffer was opened from a frame. -/
theorem Codec.exists_ofFrame_of_take {codec : Codec} {buffer rest : ByteArray} {packet : Packet}
    (h : codec.take buffer = (.ok (some packet), rest)) :
    ∃ frame, Packet.ofFrame codec.compressors codec.options.maxPayloadSize frame = .ok packet := by
  cases take_eq_iff_effect.mp h with
  | gives frame _ _ hbuffer hwhole hopened => exact ⟨frame, hopened⟩

theorem Codec.exists_ofFrame_of_takeLast {codec : Codec} {buffer : ByteArray} {packet : Packet}
    (h : (codec.takeLast buffer).1.1 = .ok (some packet)) :
    ∃ frame, Packet.ofFrame codec.compressors codec.options.maxPayloadSize frame = .ok packet := by
  cases htake : codec.take buffer with
  | mk outcome rest =>
    rcases outcome with error | _ | taken
    · simp only [takeLast, htake, reduceCtorEq] at h
    · simp only [takeLast, htake] at h
      split at h <;> cases h
    · simp only [takeLast, htake, Except.ok.injEq, Option.some.injEq] at h
      subst h
      exact exists_ofFrame_of_take htake

namespace Packet

/-! ### The ways to a packet -/

/-- A packet comes about in one of six ways. -/
inductive Obtainable : Packet → Prop
  | built (factory : Factory) (clock : Clock) (options : PacketOptions) (payload : Payload)
      {packet : Packet} (h : (factory.build clock options payload).1 = .ok packet) :
      Obtainable packet
  | made (factory : Factory) (clock : Clock) (candidate : Candidate) {packet : Packet}
      (h : (factory.make clock candidate).1 = .ok packet) : Obtainable packet
  | opened (compressors : Compressors) (limit : Nat) (bytes : ByteArray) {packet : Packet}
      (h : ofFrame compressors limit bytes = .ok packet) : Obtainable packet
  | taken (codec : Codec) (buffer rest : ByteArray) {packet : Packet}
      (h : codec.take buffer = (.ok (some packet), rest)) : Obtainable packet
  /-- From a buffer that no more octets will reach. -/
  | takenLast (codec : Codec) (buffer : ByteArray) {packet : Packet}
      (h : (codec.takeLast buffer).1.1 = .ok (some packet)) : Obtainable packet
  /-- From a stream that came in pieces and was closed. -/
  | received (codec : Codec) (pieces : List ByteArray) {packet : Packet}
      (h : packet ∈ (codec.items pieces).1) : Obtainable packet

variable {packet : Packet}

theorem Obtainable.sendable (h : Obtainable packet) : packet.Sendable := by
  cases h with
  | built factory clock options payload h => exact Factory.sendable_of_build h
  | made factory clock candidate h =>
    cases candidate with
    | payload payload => exact Factory.sendable_of_build h
    | foreign typeName => cases h
  | opened compressors limit bytes h => exact sendable_of_ofFrame h
  | taken codec buffer rest h =>
    obtain ⟨frame, hframe⟩ := Codec.exists_ofFrame_of_take h
    exact sendable_of_ofFrame hframe
  | takenLast codec buffer h =>
    obtain ⟨frame, hframe⟩ := Codec.exists_ofFrame_of_takeLast h
    exact sendable_of_ofFrame hframe
  | received codec pieces h =>
    obtain ⟨frames, rest, tail, hsegmentation, -, hitems⟩ := codec.items_eq pieces
    rw [hitems] at h
    obtain ⟨⟨frame, _⟩, hframe, rfl⟩ := List.mem_map.mp h
    exact sendable_of_ofFrame (hsegmentation.accepts _ hframe)

/-! ### Sending -/

/-- With an encodable header, only the size of the body decides whether there is a frame. -/
theorem toFrame_of_body {compressors : Compressors} {options : WireOptions}
    (hheader : packet.header.size ≤ PacketHeader.maxSize) {compression : Option CompressionKind}
    {sent : ByteArray} (hbody : packet.body compressors options = .ok (compression, sent)) :
    packet.toFrame compressors options =
      if options.maxPayloadSize < sent.size then .error (.oversized sent.size)
      else .ok (Prepared.bytes ⟨packet.version, compression, packet.header.bytes, sent⟩) := by
  rw [toFrame, prepare_of_body hheader hbody]
  split <;> rfl

/-- Assumes: a packet that came about in one of the six ways. Its version is 1, which is also the
version in every frame that opens to it, and its header is encoded in at most 65536 octets. Where a
compressor is asked for that does not fail on the payload, the packet has a body for the wire; it is
given a frame if the body is within the limit, and refused for the size of the body if it is not. -/
theorem Obtainable.toFrame_eq (h : Obtainable packet) :
    packet.version = 1 ∧
      (∀ compressors limit bytes, ofFrame compressors limit bytes = .ok packet →
        octetAt bytes 4 = packet.version) ∧
      packet.header.encode = .ok packet.header.bytes ∧ packet.header.bytes.size ≤ 65536 ∧
      ∀ (compressors : Compressors) (options : WireOptions),
        (∀ kind ∈ options.compression,
          ∃ small, compressors.compress kind packet.payload = .ok small) →
        ∃ compression sent, packet.body compressors options = .ok (compression, sent) ∧
          packet.toFrame compressors options =
            if options.maxPayloadSize < sent.size then .error (.oversized sent.size)
            else .ok (Prepared.bytes ⟨packet.version, compression, packet.header.bytes, sent⟩) := by
  obtain ⟨hversion, hheader⟩ := h.sendable
  refine ⟨hversion, ?_, PacketHeader.encode_eq_ok_iff.mpr ⟨hheader, rfl⟩, ?_, ?_⟩
  · intro compressors limit bytes hopened
    obtain ⟨frame, -, rfl, hfound, -, -⟩ := ofFrame_eq_ok_iff.mp hopened
    exact frame.octetAt_version.trans hfound.symm
  · rw [packet.header.size_bytes]
    exact hheader
  · intro compressors options hcompress
    obtain ⟨compression, sent, hbody⟩ := body_isOk hcompress
    exact ⟨compression, sent, hbody, toFrame_of_body hheader hbody⟩

/-- A packet of 48 zero octets, which go out as ten, is refused by a limit of nine. -/
theorem toFrame_eq_blank :
    ((Factory.mk ⟨false, none⟩ StandardSerializer.default.serialize).build (.ok 0) .default
        (.binary (blank 48).payload)).1 = .ok (blank 48) ∧
      (blank 48).toFrame .standard ⟨some .zstd, 0, 9⟩ = .error (.oversized 10) := by
  have hbuild : ((Factory.mk ⟨false, none⟩ StandardSerializer.default.serialize).build (.ok 0)
      .default (.binary (blank 48).payload)).1 = .ok (blank 48) := rfl
  obtain ⟨-, -, -, -, hsends⟩ := (Obtainable.built _ _ _ _ hbuild).toFrame_eq
  obtain ⟨compression, sent, hbody, hframe⟩ := hsends .standard ⟨some .zstd, 0, 9⟩ compress_blank
  obtain ⟨rfl, rfl⟩ := Prod.mk.inj (Except.ok.inj (hbody.symm.trans (body_blank 9)))
  exact ⟨hbuild, hframe⟩

end Packet

end TypedPacket
