import TypedPacket.Proofs.Frame.Grammar
import TypedPacket.Proofs.Frame.RoundTrip

/-!
# What the sizes in a frame say

A frame announces the sizes of its header and of its body in four octets each. A header is never too
large for its field; nothing but the limit of the sender bounds a body, and a sender may choose a
limit beyond the field. So the size of a body is announced modulo `2 ^ 32`
(`Packet.Prepared.numberAt_body`), and a frame is as long as it announces exactly if its body is
shorter than `2 ^ 32` octets. No other frame opens, under any limit (`Packet.toFrame_announces`).
-/

set_option autoImplicit false
set_option relaxedAutoImplicit false

namespace TypedPacket

namespace Packet

variable {compressors : Compressors} {options : WireOptions} {packet : Packet}

/-! ### Announced sizes -/

/-- A frame is as long as it announces exactly if the size of its body fits in its field. -/
theorem Prepared.size_bytes_eq_iff {frame : Prepared} (hheader : frame.header.size < 2 ^ 32) :
    frame.bytes.size = 14 + numberAt frame.bytes 6 + numberAt frame.bytes 10 ↔
      frame.body.size < 2 ^ 32 := by
  have hsize : frame.bytes.size = 14 + frame.header.size + frame.body.size := frame.size_bytes
  rw [hsize, numberAt_header_of_lt hheader, frame.numberAt_body]
  omega

/-- A frame that opens is as long as it announces. -/
theorem size_of_ofFrame {limit : Nat} {bytes : ByteArray}
    (h : ofFrame compressors limit bytes = .ok packet) :
    bytes.size = 14 + numberAt bytes 6 + numberAt bytes 10 := by
  obtain ⟨frame, hframe, rfl, -, -⟩ := ofFrame_eq_ok_iff.mp h
  exact (Prepared.size_bytes_eq_iff hframe.headerSize_lt).mpr hframe.bodySize_lt

/-! ### Frames of packets -/

/-- A header that is encoded fits in its field. -/
theorem size_header_of_prepare {prepared : Prepared}
    (h : packet.prepare compressors options = .ok prepared) : prepared.header.size < 2 ^ 32 := by
  have hprepares := prepares_of_prepare h
  rw [hprepares.header_eq, packet.header.size_bytes]
  exact Nat.lt_of_le_of_lt hprepares.size_header_le (by decide)

/-- Assumes: a packet that is given a frame, under any options. The frame is the prefix, the encoded
header and the body; it announces the size of the header, and that of the body modulo `2 ^ 32`. So
it is as long as it announces exactly if the body is shorter than `2 ^ 32` octets, and if it is not,
the frame opens under no limit. -/
theorem toFrame_announces (compressors : Compressors) (options : WireOptions) (packet : Packet)
    {frame : ByteArray} (h : packet.toFrame compressors options = .ok frame) :
    headerSection frame = packet.header.bytes ∧
      frame.size = 14 + packet.header.bytes.size + (bodySection frame).size ∧
      (bodySection frame).size ≤ options.maxPayloadSize ∧
      numberAt frame 6 = packet.header.bytes.size ∧
      numberAt frame 10 = (bodySection frame).size % 2 ^ 32 ∧
      (frame.size = 14 + numberAt frame 6 + numberAt frame 10 ↔
        (bodySection frame).size < 2 ^ 32) ∧
      (2 ^ 32 ≤ (bodySection frame).size →
        ∀ compressors limit packet, ofFrame compressors limit frame ≠ .ok packet) := by
  obtain ⟨prepared, hprepared, rfl⟩ := toFrame_eq_ok_iff.mp h
  have hprepares := prepares_of_prepare hprepared
  have hheader := size_header_of_prepare hprepared
  have htruthful := Prepared.size_bytes_eq_iff hheader
  rw [Prepared.headerSection_of_lt hheader, Prepared.bodySection_of_lt hheader,
    ← hprepares.header_eq]
  refine ⟨rfl, prepared.size_bytes, hprepares.size_body_le, Prepared.numberAt_header_of_lt hheader,
    prepared.numberAt_body, htruthful, ?_⟩
  intro hlong others limit opened hopened
  exact absurd (htruthful.mp (size_of_ofFrame hopened)) (Nat.not_lt.mpr hlong)

/-- What is announced of 48 zero octets that go out as ten. -/
theorem toFrame_announces_blank :
    (blank 48).toFrame .standard ⟨some .zstd, 0, 32⟩ = .ok shortened.bytes ∧
      numberAt shortened.bytes 6 = (blank 48).header.bytes.size ∧
      shortened.bytes.size = 14 + numberAt shortened.bytes 6 + numberAt shortened.bytes 10 := by
  have hframe : (blank 48).toFrame .standard ⟨some .zstd, 0, 32⟩ = .ok shortened.bytes :=
    toFrame_eq_ok_iff.mpr ⟨_, prepare_blank (by decide), rfl⟩
  obtain ⟨-, -, -, hheader, -, htruthful, -⟩ := toFrame_announces _ _ _ hframe
  exact ⟨hframe, hheader, htruthful.mpr (by decide +kernel)⟩

theorem size_payload_blank (size : Nat) : (blank size).payload.size = size := Array.size_replicate

/-- Zero octets within the limit go out as they are, in a frame that announces their number modulo
`2 ^ 32`. -/
theorem toFrame_blank {size limit : Nat} (hlimit : size ≤ limit) :
    ∃ frame, (blank size).toFrame .standard ⟨none, 512, limit⟩ = .ok frame ∧
      numberAt frame 10 = size % 2 ^ 32 ∧ (bodySection frame).size = size ∧
      (frame.size = 14 + numberAt frame 6 + numberAt frame 10 ↔ size < 2 ^ 32) := by
  have hheader : (blank size).header.size ≤ PacketHeader.maxSize :=
    (by decide : (PacketHeader.ofKind .binary).size ≤ PacketHeader.maxSize)
  have hpayload : (blank size).payload.size ≤ limit := by rwa [size_payload_blank]
  have hprepared : (blank size).prepare .standard ⟨none, 512, limit⟩ =
      .ok ⟨FramePrefix.version, none, (blank size).header.bytes, (blank size).payload⟩ :=
    prepare_plain rfl hheader hpayload
  have hfits := size_header_of_prepare hprepared
  refine ⟨_, toFrame_eq_ok_iff.mpr ⟨_, hprepared, rfl⟩, ?_, ?_, ?_⟩
  · rw [Prepared.numberAt_body, size_payload_blank]
  · rw [Prepared.bodySection_of_lt hfits, size_payload_blank]
  · rw [Prepared.size_bytes_eq_iff hfits, size_payload_blank]

/-- Under the largest limit that a word of 64 bits holds, a payload of `2 ^ 32` zero octets goes out
in a frame that announces a body of none. -/
theorem exists_toFrame_untruthful :
    ∃ frame, (blank (2 ^ 32)).toFrame .standard ⟨none, 512, 2 ^ 64 - 1⟩ = .ok frame ∧
      numberAt frame 10 = 0 ∧ (bodySection frame).size = 2 ^ 32 ∧
      frame.size ≠ 14 + numberAt frame 6 + numberAt frame 10 := by
  obtain ⟨frame, hframe, hbody, hsize, htruthful⟩ :=
    toFrame_blank (by decide : 2 ^ 32 ≤ 2 ^ 64 - 1)
  exact ⟨frame, hframe, hbody, hsize, fun heq ↦ Nat.lt_irrefl _ (htruthful.mp heq)⟩

end Packet

end TypedPacket
