import TypedPacket.Compression.Standard
import TypedPacket.Proofs.Stream.Take

/-!
# Streams in pieces

A stream comes in pieces, and after each of them everything is taken that is there
(`Codec.deliver`), until an error takes nothing away, which no further octets change. Draining a
buffer is draining its front and then what that leaves with the octets behind it
(`Codec.drain_append`), so that the pieces do not matter (`Codec.deliver_joined`). This needs
nothing of the compressors or of the octets: a taking that is not waiting is settled by the octets
it saw.
-/

set_option autoImplicit false
set_option relaxedAutoImplicit false

namespace TypedPacket.Codec

variable {codec : Codec} {buffer : ByteArray}

/-! ### What is taken, and what is left -/

/-- What comes from a stream: packets and errors in their order, and the octets that are left to
wait for more. Nothing is left to wait after an error that took nothing. -/
structure Yield where
  items : List (Except PacketError Packet)
  left : Option ByteArray

namespace Yield

/-- Goes on with the octets that are left, if they wait for more. -/
def andThen (first : Yield) (next : ByteArray → Yield) : Yield :=
  match first.left with
  | none => first
  | some rest => ⟨first.items ++ (next rest).items, (next rest).left⟩

theorem andThen_stop (first : Yield) : first.andThen (fun rest ↦ ⟨[], some rest⟩) = first := by
  obtain ⟨items, left⟩ := first
  cases left with
  | none => rfl
  | some rest => simp only [andThen, List.append_nil]

/-- An item comes before those of a yield. -/
def cons (item : Except PacketError Packet) (later : Yield) : Yield :=
  ⟨item :: later.items, later.left⟩

theorem andThen_cons (item : Except PacketError Packet) (first : Yield)
    (next : ByteArray → Yield) :
    (first.cons item).andThen next = (first.andThen next).cons item := by
  obtain ⟨items, left⟩ := first
  cases left <;> rfl

end Yield

/-! ### Draining a buffer -/

/-- Taking leaves fewer octets than there were if it gives a packet or changes the buffer at all. -/
theorem size_lt_of_take {outcome : Except PacketError (Option Packet)} {rest : ByteArray}
    (htake : codec.take buffer = (outcome, rest))
    (hmoves : (∃ packet, outcome = .ok (some packet)) ∨ rest ≠ buffer) :
    rest.size < buffer.size := by
  cases codec.front buffer with
  | waiting hwaits =>
    rw [hwaits] at htake
    cases htake
    exact absurd hmoves (by simp)
  | refused error hparse =>
    rw [take_of_refused hparse] at htake
    cases htake
    exact absurd hmoves (by simp)
  | framed pre frame behind hbuffer hparse hsize =>
    rw [hbuffer, take_append_of_framed hparse hsize] at htake
    rw [hbuffer, ← (Prod.mk.inj htake).2]
    exact size_lt_append_of_framed hsize behind

/-- Takes from a buffer until there is too little left, or an error takes nothing. -/
def drain (codec : Codec) (buffer : ByteArray) : Yield :=
  match htake : codec.take buffer with
  | (.ok none, rest) => ⟨[], some rest⟩
  | (.ok (some packet), rest) =>
    have := size_lt_of_take htake (.inl ⟨packet, rfl⟩)
    (drain codec rest).cons (.ok packet)
  | (.error error, rest) =>
    if hsame : rest = buffer then ⟨[.error error], none⟩
    else
      have := size_lt_of_take htake (.inr hsame)
      (drain codec rest).cons (.error error)
termination_by buffer.size

theorem drain_eq (codec : Codec) (buffer : ByteArray) :
    codec.drain buffer =
      match codec.take buffer with
      | (.ok none, rest) => ⟨[], some rest⟩
      | (.ok (some packet), rest) => (codec.drain rest).cons (.ok packet)
      | (.error error, rest) =>
        if rest = buffer then ⟨[.error error], none⟩
        else (codec.drain rest).cons (.error error) := by
  rw [drain]
  split <;> rename_i htake <;> simp only [htake, dite_eq_ite]

theorem drain_of_waiting (htake : codec.take buffer = (.ok none, buffer)) :
    codec.drain buffer = ⟨[], some buffer⟩ := by
  rw [drain_eq, htake]

theorem drain_of_refused {error : PacketError}
    (hparse : FramePrefix.parse codec.options.maxPayloadSize buffer = .error error) :
    codec.drain buffer = ⟨[.error error], none⟩ := by
  rw [drain_eq, take_of_refused hparse]
  exact if_pos rfl

/-- A frame gives one item, its packet or an error, and is gone. -/
theorem drain_append_of_framed {pre : FramePrefix} {frame : ByteArray}
    (hparse : FramePrefix.parse codec.options.maxPayloadSize frame = .ok (some pre))
    (hsize : frame.size = pre.frameSize) (rest : ByteArray) :
    codec.drain (frame ++ rest) =
      (codec.drain rest).cons
        (Packet.ofFrame codec.compressors codec.options.maxPayloadSize frame) := by
  rw [drain_eq, take_append_of_framed hparse hsize]
  cases Packet.ofFrame codec.compressors codec.options.maxPayloadSize frame with
  | error error =>
    have hdiffers : rest ≠ frame ++ rest := fun hsame ↦
      Nat.ne_of_lt (size_lt_append_of_framed hsize rest) (congrArg ByteArray.size hsame)
    exact if_neg hdiffers
  | ok packet => rfl

/-- Draining goes on where it stopped, as if it had never stopped. -/
theorem drain_append (codec : Codec) (buffer more : ByteArray) :
    codec.drain (buffer ++ more) =
      (codec.drain buffer).andThen fun rest ↦ codec.drain (rest ++ more) := by
  -- By induction on the octets of the buffer: a frame at its front is gone in both.
  induction hsize : buffer.size using Nat.strongRecOn generalizing buffer with
  | ind size ih =>
    cases codec.front buffer with
    | waiting htake =>
      rw [drain_of_waiting htake]
      rfl
    | refused error hparse =>
      rw [drain_of_refused hparse, drain_of_refused (FramePrefix.parse_append_of_error hparse more)]
      rfl
    | framed pre frame rest hbuffer hparse hframe =>
      subst hbuffer hsize
      have hless := size_lt_append_of_framed hframe rest
      rw [ByteArray.append_assoc, drain_append_of_framed hparse hframe,
        drain_append_of_framed hparse hframe, ih rest.size hless rest rfl, Yield.andThen_cons]

/-! ### Delivering pieces -/

/-- Pushes pieces of a stream to the end of a buffer, and drains it after each. -/
def deliver (codec : Codec) : List ByteArray → ByteArray → Yield
  | [], buffer => ⟨[], some buffer⟩
  | piece :: pieces, buffer =>
    (codec.drain (buffer ++ piece)).andThen fun rest ↦ codec.deliver pieces rest

/-- The stream of some pieces. -/
def joined (pieces : List ByteArray) : ByteArray := pieces.foldr (· ++ ·) .empty

theorem deliver_cons (codec : Codec) (piece : ByteArray) (pieces : List ByteArray)
    (buffer : ByteArray) :
    codec.deliver (piece :: pieces) buffer = codec.drain (buffer ++ joined (piece :: pieces)) := by
  induction pieces generalizing piece buffer with
  | nil =>
    rw [joined, List.foldr_cons, List.foldr_nil, ByteArray.append_empty]
    exact Yield.andThen_stop _
  | cons next pieces ih =>
    have hjoined : joined (piece :: next :: pieces) = piece ++ joined (next :: pieces) := rfl
    rw [hjoined, ← ByteArray.append_assoc, drain_append, deliver]
    simp only [ih]

theorem drain_empty (codec : Codec) : codec.drain .empty = ⟨[], some .empty⟩ :=
  drain_of_waiting rfl

/-- What comes from a stream, and what is left of it, do not depend on its pieces, and an error that
took nothing stays. -/
theorem deliver_joined (codec : Codec) :
    (∀ stream pieces, joined pieces = stream →
      codec.deliver pieces .empty = codec.deliver [stream] .empty) ∧
    ∀ buffer error, codec.take buffer = (.error error, buffer) →
      ∀ more, codec.take (buffer ++ more) = (.error error, buffer ++ more) := by
  constructor
  · rintro stream pieces rfl
    have hwhole : codec.deliver [joined pieces] .empty = codec.drain (joined pieces) := by
      rw [deliver_cons, joined, List.foldr_cons, List.foldr_nil, ByteArray.append_empty,
        ByteArray.empty_append]
    rw [hwhole]
    cases pieces with
    | nil => exact codec.drain_empty.symm
    | cons piece pieces => rw [deliver_cons, ByteArray.empty_append]
  · intro buffer error htake more
    exact take_append_of_refused (parse_of_take_error htake) more

/-- Octets that are no frame, cut within the magic, with a piece that is empty. -/
theorem deliver_joined_foreign :
    let codec : Codec := ⟨.standard, .default⟩
    let stream : ByteArray := ⟨Array.replicate 14 0x56⟩
    codec.deliver [⟨#[0x56]⟩, .empty, ⟨Array.replicate 13 0x56⟩] .empty =
        codec.deliver [stream] .empty ∧
      ∀ more, codec.take (stream ++ more) = (.error .invalidHeader, stream ++ more) := by
  have hparse : FramePrefix.parse WireOptions.default.maxPayloadSize
      ⟨Array.replicate 14 0x56⟩ = .error .invalidHeader := rfl
  intro codec stream
  have htake : codec.take stream = (.error .invalidHeader, stream) := take_of_refused hparse
  obtain ⟨hpieces, hstays⟩ := deliver_joined codec
  exact ⟨hpieces stream _ rfl, hstays stream .invalidHeader htake⟩

end TypedPacket.Codec
