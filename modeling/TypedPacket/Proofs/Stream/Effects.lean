import TypedPacket.Proofs.Frame.Header
import TypedPacket.Proofs.Stream.Segments

/-!
# What taking a packet does to a buffer

An attempt to take a packet has one of four effects, and the buffer says which (`Codec.Effect`): too
little is there and nothing is taken; the prefix is refused and nothing is taken; or the frame at
the front is gone, and its packet is given or its error. What follows the frame is neither read nor
changed.

An accepted frame has at least 36 octets (`Codec.Accepts.le_size`), so that taking packets from a
buffer for as long as there are any ends after one for every 36 octets at most
(`Codec.Takes.length_le`).
-/

set_option autoImplicit false
set_option relaxedAutoImplicit false

namespace TypedPacket.Codec

variable {codec : Codec} {buffer frame rest : ByteArray}

/-! ### Effects -/

/-- What an attempt to take a packet from a buffer gives, and what it leaves. -/
inductive Effect (codec : Codec) (buffer : ByteArray) :
    Except PacketError (Option Packet) × ByteArray → Prop
  /-- Too little is there. -/
  | waits (hincomplete : codec.Incomplete buffer) : Effect codec buffer (.ok none, buffer)
  /-- The prefix is refused, and stays. -/
  | refuses (error : PacketError)
      (hparse : FramePrefix.parse codec.options.maxPayloadSize buffer = .error error) :
      Effect codec buffer (.error error, buffer)
  /-- The frame at the front is gone, and its packet is given. -/
  | gives (frame rest : ByteArray) (packet : Packet) (hbuffer : buffer = frame ++ rest)
      (hwhole : codec.Whole frame)
      (hopened : Packet.ofFrame codec.compressors codec.options.maxPayloadSize frame =
        .ok packet) :
      Effect codec buffer (.ok (some packet), rest)
  /-- The frame at the front is gone, and its error is given. -/
  | drops (frame rest : ByteArray) (error : PacketError) (hbuffer : buffer = frame ++ rest)
      (hwhole : codec.Whole frame)
      (hopened : Packet.ofFrame codec.compressors codec.options.maxPayloadSize frame =
        .error error) :
      Effect codec buffer (.error error, rest)

/-- An attempt has one of the effects. -/
theorem effect_take (codec : Codec) (buffer : ByteArray) :
    codec.Effect buffer (codec.take buffer) := by
  cases codec.front buffer with
  | waiting htake =>
    rw [htake]
    exact .waits (incomplete_of_take htake)
  | refused error hparse =>
    rw [take_of_refused hparse]
    exact .refuses error hparse
  | framed pre frame rest hbuffer hparse hsize =>
    have hwhole : codec.Whole frame := ⟨pre, hparse, hsize⟩
    rw [hbuffer, hwhole.take_append, ← hbuffer]
    cases hopened : Packet.ofFrame codec.compressors codec.options.maxPayloadSize frame with
    | error error => exact .drops frame rest error hbuffer hwhole hopened
    | ok packet => exact .gives frame rest packet hbuffer hwhole hopened

/-- The effect is what the attempt does. -/
theorem Effect.take_eq {outcome : Except PacketError (Option Packet) × ByteArray}
    (h : codec.Effect buffer outcome) : codec.take buffer = outcome := by
  cases h with
  | waits hincomplete => exact take_of_incomplete hincomplete
  | refuses error hparse => exact take_of_refused hparse
  | gives frame rest packet hbuffer hwhole hopened =>
    rw [hbuffer, hwhole.take_append, hopened]
    rfl
  | drops frame rest error hbuffer hwhole hopened =>
    rw [hbuffer, hwhole.take_append, hopened]
    rfl

theorem take_eq_iff_effect {outcome : Except PacketError (Option Packet) × ByteArray} :
    codec.take buffer = outcome ↔ codec.Effect buffer outcome :=
  ⟨fun h ↦ h ▸ codec.effect_take buffer, Effect.take_eq⟩

/-! ### Sizes of frames -/

/-- A prefix that is read announces a header of at least one octet. -/
theorem Whole.le_size (hwhole : codec.Whole frame) : 15 ≤ frame.size := by
  obtain ⟨pre, hparse, hsize⟩ := hwhole
  have hpos := (FramePrefix.parse_eq_some_iff.mp hparse).1.headerSize_pos
  omega

/-- An accepted frame has a prefix of 14 octets and a header of at least 22. -/
theorem Accepts.le_size {packet : Packet} (haccepts : codec.Accepts frame packet) :
    36 ≤ frame.size := by
  obtain ⟨prepared, -, rfl, -, hheader, -⟩ := Packet.ofFrame_eq_ok_iff.mp haccepts
  have hencoded := PacketHeader.size_bytes_le_of_decode hheader
  have hleast := packet.header.le_size
  rw [PacketHeader.size_bytes] at hencoded
  rw [prepared.size_bytes, FramePrefix.frameSize, FramePrefix.size]
  simp only [Packet.Prepared.announced]
  omega

/-! ### Taking packets in a loop -/

/-- Packets are taken from a buffer one after another, and the rest is left. -/
inductive Takes (codec : Codec) : ByteArray → List Packet → ByteArray → Prop
  | nil (buffer : ByteArray) : Takes codec buffer [] buffer
  | cons {buffer more rest : ByteArray} {packet : Packet} {packets : List Packet}
      (htake : codec.take buffer = (.ok (some packet), more))
      (hlater : Takes codec more packets rest) : Takes codec buffer (packet :: packets) rest

/-- A packet that is taken takes at least 36 octets from the buffer. -/
theorem size_add_le_of_take {packet : Packet}
    (htake : codec.take buffer = (.ok (some packet), rest)) : 36 + rest.size ≤ buffer.size := by
  cases take_eq_iff_effect.mp htake with
  | gives frame _ _ hbuffer hwhole hopened =>
    have hframe : 36 ≤ frame.size := Accepts.le_size hopened
    rw [hbuffer, ByteArray.size_append]
    omega

theorem Takes.size_add_le {packets : List Packet} (htakes : codec.Takes buffer packets rest) :
    36 * packets.length + rest.size ≤ buffer.size := by
  induction htakes with
  | nil buffer =>
    rw [List.length_nil]
    omega
  | cons htake hlater ih =>
    have hfirst := size_add_le_of_take htake
    rw [List.length_cons]
    omega

theorem Takes.length_le {packets : List Packet} (htakes : codec.Takes buffer packets rest) :
    packets.length ≤ buffer.size / 36 := by
  have hsize := htakes.size_add_le
  omega

theorem takes_of_segmentation {frames : List (ByteArray × Packet)}
    (hsegmentation : codec.Segmentation buffer frames rest) :
    codec.Takes buffer (frames.map Prod.snd) rest := by
  induction frames generalizing buffer with
  | nil =>
    obtain rfl := hsegmentation.of_nil
    exact .nil buffer
  | cons frame frames ih =>
    obtain ⟨more, -, htake, hmore⟩ := hsegmentation.of_cons
    exact .cons htake (ih hmore)

/-- Taking all packets takes them one after another, until there is none. -/
theorem exists_takes (codec : Codec) (buffer : ByteArray) :
    ∃ packets rest tail, codec.takeAll buffer [] = (packets.reverse, tail) ∧
      codec.Takes buffer packets rest ∧
      ∀ packet after, codec.take rest ≠ (.ok (some packet), after) := by
  obtain ⟨frames, rest, tail, hsegmentation, -, htaken⟩ := codec.takeAll_segmentation buffer []
  rw [List.append_nil] at htaken
  refine ⟨_, rest, tail, htaken, takes_of_segmentation hsegmentation, fun packet after htake ↦ ?_⟩
  cases take_eq_iff_effect.mp htake with
  | gives frame _ _ hrest hwhole hopened => exact hsegmentation.barren _ _ _ hrest hopened

/-- An attempt to take a packet does exactly what its effect says. Octets that are as many as their
prefix announces are at least 15, are taken whole, and whatever follows them is left as it is; an
accepted frame is such octets, has at least 36 of them, and gives its packet. Packets can be taken
one after another no more often than 36 goes into the size of the buffer, which the loop that takes
them all does until there is none. -/
theorem take_effects (codec : Codec) (buffer : ByteArray) :
    (∀ outcome, codec.take buffer = outcome ↔ codec.Effect buffer outcome) ∧
    (∀ frame, codec.Whole frame → 15 ≤ frame.size ∧ ∀ behind, codec.take (frame ++ behind) =
      ((Packet.ofFrame codec.compressors codec.options.maxPayloadSize frame).map some, behind)) ∧
    (∀ frame packet, codec.Accepts frame packet → codec.Whole frame ∧ 36 ≤ frame.size ∧
      ∀ behind, codec.take (frame ++ behind) = (.ok (some packet), behind)) ∧
    (∀ packets rest, codec.Takes buffer packets rest → packets.length ≤ buffer.size / 36) ∧
    ∃ packets rest tail, codec.takeAll buffer [] = (packets.reverse, tail) ∧
      codec.Takes buffer packets rest ∧
      ∀ packet after, codec.take rest ≠ (.ok (some packet), after) :=
  ⟨fun _ ↦ take_eq_iff_effect, fun _ hwhole ↦ ⟨hwhole.le_size, hwhole.take_append⟩,
    fun _ _ haccepts ↦ ⟨haccepts.whole, haccepts.le_size, take_append_of_accepts haccepts⟩,
    fun _ _ htakes ↦ htakes.length_le, codec.exists_takes buffer⟩

/-- The smallest frame there is, with whatever follows it. -/
theorem take_effects_smallest :
    let codec : Codec := ⟨.standard, .default⟩
    let frame := (Packet.blank 0).plain.bytes
    frame.size = 36 ∧ codec.Whole frame ∧
      ∀ behind, codec.take (frame ++ behind) = (.ok (some (Packet.blank 0)), behind) := by
  intro codec frame
  have haccepts : codec.Accepts frame (Packet.blank 0) :=
    Packet.ofFrame_bytes (by decide) (Nat.zero_le _) (by decide) none
  obtain ⟨-, -, haccepted, -, -⟩ := take_effects codec frame
  obtain ⟨hwhole, -, htake⟩ := haccepted frame (Packet.blank 0) haccepts
  exact ⟨by decide, hwhole, htake⟩

end TypedPacket.Codec
