import TypedPacket.Packet.Codec
import TypedPacket.Proofs.Frame.RoundTrip

/-!
# Taking one packet from a buffer

A buffer has one of three fronts (`Codec.front`): too little to tell, a prefix that is refused, or a
whole frame with whatever follows it. More octets behind a front that is not waiting change nothing:
a bad prefix stays bad (`Codec.take_append_of_refused`), and a frame is taken as it was
(`Codec.take_append_of_framed`).
-/

set_option autoImplicit false
set_option relaxedAutoImplicit false

namespace TypedPacket.Codec

variable {codec : Codec} {buffer : ByteArray}

/-! ### Fronts -/

/-- What stands at the front of a buffer. -/
inductive Front (codec : Codec) (buffer : ByteArray) : Prop
  | waiting (htake : codec.take buffer = (.ok none, buffer))
  | refused (error : PacketError)
      (hparse : FramePrefix.parse codec.options.maxPayloadSize buffer = .error error)
  | framed (pre : FramePrefix) (frame rest : ByteArray) (hbuffer : buffer = frame ++ rest)
      (hparse : FramePrefix.parse codec.options.maxPayloadSize frame = .ok (some pre))
      (hsize : frame.size = pre.frameSize)

theorem take_of_refused {error : PacketError}
    (hparse : FramePrefix.parse codec.options.maxPayloadSize buffer = .error error) :
    codec.take buffer = (.error error, buffer) := by
  simp only [take, hparse]

/-- An error of the prefix takes nothing, and stays whatever follows. -/
theorem take_append_of_refused {error : PacketError}
    (hparse : FramePrefix.parse codec.options.maxPayloadSize buffer = .error error)
    (more : ByteArray) : codec.take (buffer ++ more) = (.error error, buffer ++ more) :=
  take_of_refused (FramePrefix.parse_append_of_error hparse more)

/-- A frame is taken as if nothing followed it, and what follows is left. -/
theorem take_append_of_framed {pre : FramePrefix} {frame : ByteArray}
    (hparse : FramePrefix.parse codec.options.maxPayloadSize frame = .ok (some pre))
    (hsize : frame.size = pre.frameSize) (rest : ByteArray) :
    codec.take (frame ++ rest) =
      ((Packet.ofFrame codec.compressors codec.options.maxPayloadSize frame).map some, rest) := by
  have hprefix : FramePrefix.size ≤ frame.size := hsize ▸ pre.size_le_frameSize
  have hwhole : ¬ (frame ++ rest).size < frame.size := by
    rw [ByteArray.size_append]
    omega
  simp only [take, FramePrefix.parse_append _ hprefix, hparse, ← hsize, hwhole, if_false]
  rw [ByteArray.extract_append_eq_left rfl,
    ByteArray.extract_append_eq_right rfl ByteArray.size_append]

theorem take_append_of_admitted {frame : Packet.Prepared}
    (hframe : frame.Admitted codec.options.maxPayloadSize) (rest : ByteArray) :
    codec.take (frame.bytes ++ rest) =
      ((Packet.ofFrame codec.compressors codec.options.maxPayloadSize frame.bytes).map some,
        rest) :=
  take_append_of_framed (Packet.Prepared.parse_bytes hframe) frame.size_bytes rest

theorem front (codec : Codec) (buffer : ByteArray) : codec.Front buffer := by
  cases hparse : FramePrefix.parse codec.options.maxPayloadSize buffer with
  | error error => exact .refused error hparse
  | ok found =>
    cases found with
    | none => exact .waiting (by simp only [take, hparse])
    | some pre =>
      by_cases hshort : buffer.size < pre.frameSize
      · exact .waiting (by simp only [take, hparse, hshort, if_true])
      · -- The octets that the prefix announces, and those behind them.
        have hbuffer : buffer = buffer.extract 0 pre.frameSize ++
            buffer.extract pre.frameSize buffer.size := by
          rw [← ByteArray.extract_eq_extract_append_extract _ (Nat.zero_le _)
            (Nat.le_of_not_lt hshort), ByteArray.extract_zero_size]
        have hsize : (buffer.extract 0 pre.frameSize).size = pre.frameSize := by
          rw [ByteArray.size_extract]
          omega
        refine .framed pre _ _ hbuffer ?_ hsize
        have hprefix : FramePrefix.size ≤ (buffer.extract 0 pre.frameSize).size :=
          hsize.symm ▸ pre.size_le_frameSize
        rw [← FramePrefix.parse_append _ hprefix (buffer.extract pre.frameSize buffer.size),
          ← hbuffer, hparse]

/-- No frame is empty. -/
theorem size_lt_append_of_framed {pre : FramePrefix} {frame : ByteArray}
    (hsize : frame.size = pre.frameSize) (rest : ByteArray) : rest.size < (frame ++ rest).size := by
  have hpos : 0 < frame.size := hsize ▸ Nat.lt_of_lt_of_le (by decide) pre.size_le_frameSize
  rw [ByteArray.size_append]
  exact Nat.lt_add_of_pos_left hpos

/-- Only a refused prefix gives an error that takes nothing from the buffer. -/
theorem parse_of_take_error {error : PacketError} (h : codec.take buffer = (.error error, buffer)) :
    FramePrefix.parse codec.options.maxPayloadSize buffer = .error error := by
  cases codec.front buffer with
  | waiting htake =>
    rw [htake] at h
    cases h
  | refused other hparse =>
    rw [take_of_refused hparse] at h
    cases h
    exact hparse
  | framed pre frame rest hbuffer hparse hsize =>
    subst hbuffer
    rw [take_append_of_framed hparse hsize] at h
    have hrest : rest.size = (frame ++ rest).size := congrArg ByteArray.size (Prod.mk.inj h).2
    exact absurd hrest (Nat.ne_of_lt (size_lt_append_of_framed hsize rest))

/-! ### Writing to a buffer -/

/-- A frame goes to the end of the buffer, which otherwise stays as it was. -/
theorem append_cases (codec : Codec) (packet : Packet) (buffer : ByteArray) :
    (∃ error, codec.append packet buffer = (.error error, buffer)) ∨
      ∃ notices frame, packet.toFrame codec.compressors codec.options = .ok frame ∧
        codec.append packet buffer = (.ok notices, buffer ++ frame) := by
  rcases Packet.appendFrame_cases codec.compressors codec.options packet buffer with
    ⟨error, happend⟩ | ⟨compressed, frame, hframe, happend⟩
  · exact .inl ⟨error, by simp only [append, happend]⟩
  · refine .inr ⟨[.encoded codec.options.compression.isSome compressed], frame, hframe, ?_⟩
    simp only [append, happend]

theorem encode_eq_ok {packet : Packet} {after : ByteArray} {notices : List Notice}
    (h : codec.encode packet buffer = .ok (after, notices)) :
    ∃ frame, packet.toFrame codec.compressors codec.options = .ok frame ∧
      after = buffer ++ frame := by
  rcases codec.append_cases packet buffer with
    ⟨error, happend⟩ | ⟨told, frame, hframe, happend⟩
  · simp only [encode, happend, reduceCtorEq] at h
  · simp only [encode, happend, Except.ok.injEq, Prod.mk.injEq] at h
    exact ⟨frame, hframe, h.1.symm⟩

end TypedPacket.Codec
