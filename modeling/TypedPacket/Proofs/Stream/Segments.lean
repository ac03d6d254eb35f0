import TypedPacket.Proofs.Frame.Grammar
import TypedPacket.Proofs.Stream.Chunks

/-!
# Streams as sequences of frames

A stream is accepted frames, one after another, and a rest that starts with no accepted frame
(`Codec.Segmentation`). No accepted frame is the front of another, so there is only one way to see a
stream so (`Codec.Segmentation.unique`). What is read of a closed stream are the packets of its
frames, in whatever pieces it came, and how it ends is told by the rest alone
(`Codec.items_segmentation`).
-/

set_option autoImplicit false
set_option relaxedAutoImplicit false

namespace TypedPacket.Codec

variable {codec : Codec} {buffer stream rest : ByteArray} {frames : List (ByteArray × Packet)}

/-! ### Accepted frames -/

/-- The octets are a frame of the packet that is within the limit of the codec. -/
def Accepts (codec : Codec) (frame : ByteArray) (packet : Packet) : Prop :=
  Packet.ofFrame codec.compressors codec.options.maxPayloadSize frame = .ok packet

/-- The octets begin with a prefix that is read, and are as many as it announces. -/
def Whole (codec : Codec) (frame : ByteArray) : Prop :=
  ∃ pre, FramePrefix.parse codec.options.maxPayloadSize frame = .ok (some pre) ∧
    frame.size = 14 + pre.headerSize + pre.bodySize

theorem Whole.take_append {frame : ByteArray} (hwhole : codec.Whole frame) (rest : ByteArray) :
    codec.take (frame ++ rest) =
      ((Packet.ofFrame codec.compressors codec.options.maxPayloadSize frame).map some, rest) := by
  obtain ⟨pre, hparse, hsize⟩ := hwhole
  exact take_append_of_framed hparse hsize rest

theorem Accepts.whole {frame : ByteArray} {packet : Packet}
    (haccepts : codec.Accepts frame packet) : codec.Whole frame := by
  obtain ⟨prepared, hadmitted, rfl, -, -⟩ := Packet.ofFrame_eq_ok_iff.mp haccepts
  exact ⟨prepared.announced, Packet.Prepared.parse_bytes hadmitted, prepared.size_bytes⟩

/-- An accepted frame is taken from the front of a buffer, whatever follows. -/
theorem take_append_of_accepts {frame : ByteArray} {packet : Packet}
    (haccepts : codec.Accepts frame packet) (behind : ByteArray) :
    codec.take (frame ++ behind) = (.ok (some packet), behind) := by
  rw [haccepts.whole.take_append, haccepts]
  rfl

/-- The octets start with no accepted frame. -/
def Barren (codec : Codec) (rest : ByteArray) : Prop :=
  ∀ frame behind packet, rest = frame ++ behind → ¬ codec.Accepts frame packet

theorem barren_of_take
    (htake : ∀ packet behind, codec.take rest ≠ (.ok (some packet), behind)) :
    codec.Barren rest := by
  rintro frame behind packet rfl haccepts
  exact htake packet behind (take_append_of_accepts haccepts behind)

/-! ### What a rest gives -/

/-- The octets are too few for a prefix, or for the frame that their prefix announces. -/
def Incomplete (codec : Codec) (rest : ByteArray) : Prop :=
  rest.size < FramePrefix.size ∨
    ∃ pre, FramePrefix.parse codec.options.maxPayloadSize rest = .ok (some pre) ∧
      rest.size < pre.frameSize

/-- The error of the prefix at the front of the octets, or of the frame that it announces and that
is all there. -/
inductive Produces (codec : Codec) (rest : ByteArray) (error : PacketError) : Prop
  | ofPrefix (hparse : FramePrefix.parse codec.options.maxPayloadSize rest = .error error)
  | ofFrame (pre : FramePrefix) (frame behind : ByteArray) (hrest : rest = frame ++ behind)
      (hparse : FramePrefix.parse codec.options.maxPayloadSize frame = .ok (some pre))
      (hsize : frame.size = pre.frameSize)
      (hopened : Packet.ofFrame codec.compressors codec.options.maxPayloadSize frame =
        .error error)

theorem incomplete_empty (codec : Codec) : codec.Incomplete .empty := .inl (by decide)

theorem take_of_incomplete (hincomplete : codec.Incomplete rest) :
    codec.take rest = (.ok none, rest) := by
  rcases hincomplete with hshort | ⟨pre, hparse, hshort⟩
  · simp only [take, FramePrefix.parse_eq_none_iff.mpr hshort]
  · simp only [take, hparse, hshort, if_true]

theorem incomplete_of_take (htake : codec.take rest = (.ok none, rest)) :
    codec.Incomplete rest := by
  unfold take at htake
  cases hparse : FramePrefix.parse codec.options.maxPayloadSize rest with
  | error error =>
    rw [hparse] at htake
    cases htake
  | ok found =>
    cases found with
    | none => exact .inl (FramePrefix.parse_eq_none_iff.mp hparse)
    | some pre =>
      simp only [hparse] at htake
      split at htake
      · rename_i hshort
        exact .inr ⟨pre, hparse, hshort⟩
      · cases hopened : Packet.ofFrame codec.compressors codec.options.maxPayloadSize
            (rest.extract 0 pre.frameSize) <;> rw [hopened] at htake <;> cases htake

theorem Produces.take_eq {error : PacketError} (hproduces : codec.Produces rest error) :
    ∃ left, codec.take rest = (.error error, left) := by
  cases hproduces with
  | ofPrefix hparse => exact ⟨rest, take_of_refused hparse⟩
  | ofFrame pre frame behind hrest hparse hsize hopened =>
    subst hrest
    refine ⟨behind, ?_⟩
    rw [take_append_of_framed hparse hsize, hopened]
    rfl

theorem Produces.not_incomplete {error : PacketError} (hproduces : codec.Produces rest error) :
    ¬ codec.Incomplete rest := by
  intro hincomplete
  obtain ⟨left, htake⟩ := hproduces.take_eq
  rw [take_of_incomplete hincomplete] at htake
  cases htake

/-- No frame and no prefix is refused as a stream that ends too early. -/
theorem Produces.ne_cutOff {error : PacketError} (hproduces : codec.Produces rest error) :
    error ≠ .cutOff := by
  have hrefused : ∃ bytes, Packet.ofFrame codec.compressors codec.options.maxPayloadSize bytes =
      .error error := by
    cases hproduces with
    | ofPrefix hparse => exact ⟨rest, by simp only [Packet.ofFrame, hparse, bind, Except.bind]⟩
    | ofFrame pre frame behind hrest hparse hsize hopened => exact ⟨frame, hopened⟩
  obtain ⟨bytes, hrefused⟩ := hrefused
  obtain ⟨check, -, rfl⟩ := Packet.ofFrame_eq_error_iff.mp hrefused
  cases check <;> intro heq <;> cases heq

/-- An error stays whatever follows. -/
theorem Produces.append {error : PacketError} (hproduces : codec.Produces rest error)
    (more : ByteArray) : codec.Produces (rest ++ more) error := by
  cases hproduces with
  | ofPrefix hparse => exact .ofPrefix (FramePrefix.parse_append_of_error hparse more)
  | ofFrame pre frame behind hrest hparse hsize hopened =>
    subst hrest
    exact .ofFrame pre frame (behind ++ more) ByteArray.append_assoc hparse hsize hopened

/-- How taking stops in front of octets with no accepted frame. -/
inductive Stops (codec : Codec) (rest : ByteArray) : Tail → Prop
  | waiting (hincomplete : codec.Incomplete rest) : Stops codec rest (.ok rest)
  | failing (error : PacketError) (hproduces : codec.Produces rest error) :
      Stops codec rest (.error error)

theorem Stops.barren {tail : Tail} (hstops : codec.Stops rest tail) : codec.Barren rest := by
  apply barren_of_take
  intro packet behind htake
  cases hstops with
  | waiting hincomplete =>
    rw [take_of_incomplete hincomplete] at htake
    cases htake
  | failing error hproduces =>
    obtain ⟨left, hleft⟩ := hproduces.take_eq
    rw [hleft] at htake
    cases htake

/-! ### Segmentations -/

/-- The stream is the accepted frames, one after another, and a rest that starts with none. -/
structure Segmentation (codec : Codec) (stream : ByteArray) (frames : List (ByteArray × Packet))
    (rest : ByteArray) : Prop where
  stream_eq : stream = joined (frames.map Prod.fst) ++ rest
  accepts : ∀ frame ∈ frames, codec.Accepts frame.1 frame.2
  barren : codec.Barren rest

theorem joined_cons (piece : ByteArray) (pieces : List ByteArray) :
    joined (piece :: pieces) = piece ++ joined pieces := rfl

theorem joined_append (pieces others : List ByteArray) :
    joined (pieces ++ others) = joined pieces ++ joined others := by
  induction pieces with
  | nil => exact ByteArray.empty_append.symm
  | cons piece pieces ih => rw [List.cons_append, joined_cons, joined_cons, ih,
      ByteArray.append_assoc]

theorem Segmentation.nil (hbarren : codec.Barren rest) : codec.Segmentation rest [] rest :=
  ⟨ByteArray.empty_append.symm, fun _ hmem ↦ absurd hmem List.not_mem_nil, hbarren⟩

theorem Segmentation.cons {frame : ByteArray} {packet : Packet}
    (haccepts : codec.Accepts frame packet)
    (hsegmentation : codec.Segmentation stream frames rest) :
    codec.Segmentation (frame ++ stream) ((frame, packet) :: frames) rest := by
  refine ⟨?_, ?_, hsegmentation.barren⟩
  · rw [List.map_cons, joined_cons, ByteArray.append_assoc, ← hsegmentation.stream_eq]
  · rw [List.forall_mem_cons]
    exact ⟨haccepts, hsegmentation.accepts⟩

/-- Where a first stream goes on with its rest in front of a second one. -/
theorem Segmentation.trans {more last : ByteArray} {others : List (ByteArray × Packet)}
    (hfirst : codec.Segmentation stream frames rest)
    (hsecond : codec.Segmentation (rest ++ more) others last) :
    codec.Segmentation (stream ++ more) (frames ++ others) last := by
  refine ⟨?_, ?_, hsecond.barren⟩
  · rw [hfirst.stream_eq, List.map_append, joined_append, ByteArray.append_assoc,
      hsecond.stream_eq, ByteArray.append_assoc]
  · intro frame hmem
    rcases List.mem_append.mp hmem with hmem | hmem
    · exact hfirst.accepts frame hmem
    · exact hsecond.accepts frame hmem

/-- The first frame of a segmentation is taken, and the others are a segmentation of what is left.
-/
theorem Segmentation.of_cons {frame : ByteArray × Packet}
    (hsegmentation : codec.Segmentation stream (frame :: frames) rest) :
    ∃ more, stream = frame.1 ++ more ∧ codec.take stream = (.ok (some frame.2), more) ∧
      codec.Segmentation more frames rest := by
  obtain ⟨hstream, haccepts, hbarren⟩ := hsegmentation
  rw [List.forall_mem_cons] at haccepts
  rw [List.map_cons, joined_cons, ByteArray.append_assoc] at hstream
  subst hstream
  exact ⟨_, rfl, take_append_of_accepts haccepts.1 _, rfl, haccepts.2, hbarren⟩

theorem Segmentation.of_nil (hsegmentation : codec.Segmentation stream [] rest) : stream = rest :=
  hsegmentation.stream_eq.trans ByteArray.empty_append

/-- There is only one segmentation of a stream, since what is taken first is told by the stream. -/
theorem Segmentation.unique {others : List (ByteArray × Packet)} {left : ByteArray}
    (hfirst : codec.Segmentation stream frames rest)
    (hsecond : codec.Segmentation stream others left) : others = frames ∧ left = rest := by
  induction frames generalizing stream others with
  | nil =>
    obtain rfl := hfirst.of_nil
    cases others with
    | nil => exact ⟨rfl, hsecond.of_nil.symm⟩
    | cons other others =>
      obtain ⟨more, hstream, -, -⟩ := hsecond.of_cons
      exact absurd (hsecond.accepts other List.mem_cons_self) (hfirst.barren _ _ _ hstream)
  | cons frame frames ih =>
    obtain ⟨more, hstream, htake, hmore⟩ := hfirst.of_cons
    cases others with
    | nil =>
      obtain rfl := hsecond.of_nil
      exact absurd (hfirst.accepts frame List.mem_cons_self) (hsecond.barren _ _ _ hstream)
    | cons other others =>
      obtain ⟨later, hother, htaken, hlater⟩ := hsecond.of_cons
      rw [htake, Prod.mk.injEq, Except.ok.injEq, Option.some.injEq] at htaken
      obtain ⟨hpacket, rfl⟩ := htaken
      obtain ⟨rfl, rfl⟩ := ih hmore hlater
      rw [hstream, ByteArray.append_left_inj] at hother
      exact ⟨by rw [Prod.ext hother hpacket], rfl⟩

/-! ### Reading a closed stream -/

/-- The frames of a buffer are taken until a rest with no accepted frame in front. -/
theorem takeAll_segmentation (codec : Codec) (buffer : ByteArray) (sofar : List Packet) :
    ∃ frames rest tail, codec.Segmentation buffer frames rest ∧ codec.Stops rest tail ∧
      codec.takeAll buffer sofar = ((frames.map Prod.snd).reverse ++ sofar, tail) := by
  induction hsize : buffer.size using Nat.strongRecOn generalizing buffer sofar with
  | ind size ih =>
    subst hsize
    rw [takeAll]
    cases codec.front buffer with
    | waiting htake =>
      have hstops : codec.Stops buffer (.ok buffer) := .waiting (incomplete_of_take htake)
      refine ⟨[], buffer, _, .nil hstops.barren, hstops, ?_⟩
      rw [htake]
      rfl
    | refused error hparse =>
      have hstops : codec.Stops buffer (.error error) := .failing error (.ofPrefix hparse)
      refine ⟨[], buffer, _, .nil hstops.barren, hstops, ?_⟩
      rw [take_of_refused hparse]
      rfl
    | framed pre frame rest hbuffer hparse hframe =>
      subst hbuffer
      have hless := size_lt_append_of_framed hframe rest
      rw [take_append_of_framed hparse hframe]
      cases hopened : Packet.ofFrame codec.compressors codec.options.maxPayloadSize frame with
      | error error =>
        have hstops : codec.Stops (frame ++ rest) (.error error) :=
          .failing error (.ofFrame pre frame rest rfl hparse hframe hopened)
        exact ⟨[], frame ++ rest, _, .nil hstops.barren, hstops, rfl⟩
      | ok packet =>
        obtain ⟨frames, last, tail, hsegmentation, hstops, htaken⟩ :=
          ih rest.size hless rest (packet :: sofar) rfl
        refine ⟨(frame, packet) :: frames, last, tail, hsegmentation.cons hopened, hstops, ?_⟩
        simp only [Except.map, hless, if_true, htaken, List.map_cons, List.reverse_cons,
          List.append_assoc, List.singleton_append]

/-- Feeding goes on with what waits in the buffer, and stops at the first error. -/
theorem feed_segmentation (codec : Codec) (pieces : List ByteArray) (buffer : ByteArray)
    (sofar : List Packet) (hbuffer : codec.Incomplete buffer) :
    ∃ frames rest tail, codec.Segmentation (buffer ++ joined pieces) frames rest ∧
      codec.Stops rest tail ∧
      codec.feed pieces buffer sofar = ((frames.map Prod.snd).reverse ++ sofar, tail) := by
  induction pieces generalizing buffer sofar with
  | nil =>
    have hstops : codec.Stops buffer (.ok buffer) := .waiting hbuffer
    refine ⟨[], buffer, _, ?_, hstops, rfl⟩
    rw [joined, List.foldr_nil, ByteArray.append_empty]
    exact .nil hstops.barren
  | cons piece pieces ih =>
    obtain ⟨frames, rest, tail, hsegmentation, hstops, htaken⟩ :=
      codec.takeAll_segmentation (buffer ++ piece) sofar
    rw [joined_cons, ← ByteArray.append_assoc, feed, htaken]
    cases hstops with
    | waiting hincomplete =>
      obtain ⟨others, last, tail, hlater, hstops, hfed⟩ :=
        ih rest ((frames.map Prod.snd).reverse ++ sofar) hincomplete
      refine ⟨frames ++ others, last, tail, hsegmentation.trans hlater, hstops, ?_⟩
      simp only [hfed, List.map_append, List.reverse_append, List.append_assoc]
    | failing error hproduces =>
      -- What comes after the error is not read, and does not change it.
      have hstops : codec.Stops (rest ++ joined pieces) (.error error) :=
        .failing error (hproduces.append _)
      refine ⟨frames, rest ++ joined pieces, _, ?_, hstops, rfl⟩
      have hlater := hsegmentation.trans (.nil hstops.barren)
      rwa [List.append_nil] at hlater

/-- The error that a closed stream ends with. -/
def ending : Tail → Option PacketError
  | .error error => some error
  | .ok rest => if rest.size = 0 then none else some .cutOff

theorem items_eq (codec : Codec) (pieces : List ByteArray) :
    ∃ frames rest tail, codec.Segmentation (joined pieces) frames rest ∧ codec.Stops rest tail ∧
      codec.items pieces = (frames.map Prod.snd, ending tail) := by
  obtain ⟨frames, rest, tail, hsegmentation, hstops, hfed⟩ :=
    codec.feed_segmentation pieces .empty [] codec.incomplete_empty
  rw [ByteArray.empty_append] at hsegmentation
  refine ⟨frames, rest, tail, hsegmentation, hstops, ?_⟩
  rw [items, hfed, List.append_nil]
  cases hstops <;> simp only [List.reverse_reverse, ending]

/-- What is left when the last piece was read is asked for a last packet, and tells how the stream
ends. -/
theorem items_takeLast {pieces : List ByteArray} {packets : List Packet}
    (hfed : codec.feed pieces .empty [] = (packets, .ok rest)) :
    codec.items pieces =
      (packets.reverse,
        match (codec.takeLast rest).1.1 with
        | .ok _ => none
        | .error error => some error) := by
  obtain ⟨frames, last, tail, -, hstops, htaken⟩ :=
    codec.feed_segmentation pieces .empty [] codec.incomplete_empty
  obtain rfl : tail = .ok rest := (Prod.mk.inj (htaken.symm.trans hfed)).2
  cases hstops with
  | waiting hincomplete =>
    simp only [items, hfed, takeLast, take_of_incomplete hincomplete]
    split <;> rfl

/-! ### How a stream ends -/

theorem ending_eq_none_iff {tail : Tail} (hstops : codec.Stops rest tail) :
    ending tail = none ↔ rest = .empty := by
  cases hstops with
  | waiting hincomplete =>
    rw [ending, ← ByteArray.size_eq_zero_iff]
    split
    · rename_i hnothing
      exact iff_of_true rfl hnothing
    · rename_i hsomething
      exact iff_of_false nofun hsomething
  | failing error hproduces =>
    refine iff_of_false nofun ?_
    rintro rfl
    exact hproduces.not_incomplete codec.incomplete_empty

theorem ending_eq_cutOff_iff {tail : Tail} (hstops : codec.Stops rest tail) :
    ending tail = some .cutOff ↔ rest ≠ .empty ∧ codec.Incomplete rest := by
  cases hstops with
  | waiting hincomplete =>
    rw [ending, ne_eq, ← ByteArray.size_eq_zero_iff]
    split
    · rename_i hnothing
      exact iff_of_false nofun fun h ↦ h.1 hnothing
    · rename_i hsomething
      exact iff_of_true rfl ⟨hsomething, hincomplete⟩
  | failing error hproduces =>
    rw [ending, Option.some.injEq]
    exact iff_of_false hproduces.ne_cutOff fun h ↦ hproduces.not_incomplete h.2

theorem exists_segmentation {parts : List ByteArray}
    (hparts : ∀ part ∈ parts, ∃ packet, codec.Accepts part packet) :
    ∃ frames, codec.Segmentation (joined parts) frames .empty := by
  induction parts with
  | nil => exact ⟨[], .nil (Stops.waiting codec.incomplete_empty).barren⟩
  | cons part parts ih =>
    rw [List.forall_mem_cons] at hparts
    obtain ⟨⟨packet, haccepts⟩, hothers⟩ := hparts
    obtain ⟨frames, hsegmentation⟩ := ih hothers
    exact ⟨_, hsegmentation.cons haccepts⟩

/-- Accepted frames, one after another, leave no rest. -/
theorem rest_eq_empty_iff (hsegmentation : codec.Segmentation stream frames rest) :
    rest = .empty ↔ ∃ parts, joined parts = stream ∧
      ∀ part ∈ parts, ∃ packet, codec.Accepts part packet := by
  constructor
  · rintro rfl
    refine ⟨frames.map Prod.fst, ?_, ?_⟩
    · rw [hsegmentation.stream_eq, ByteArray.append_empty]
    · intro part hpart
      obtain ⟨frame, hframe, rfl⟩ := List.mem_map.mp hpart
      exact ⟨frame.2, hsegmentation.accepts frame hframe⟩
  · rintro ⟨parts, rfl, hparts⟩
    obtain ⟨others, hothers⟩ := exists_segmentation hparts
    exact (hothers.unique hsegmentation).2

/-- A closed stream is read as its only segmentation, in whatever pieces it came: the packets of its
frames, and at most one error behind them. There is no error exactly if the stream is accepted
frames and nothing else; it is cut off exactly if the rest is the front of a frame that may still be
accepted; otherwise the error is the one of the prefix at the front of the rest, or of the frame
that stands there. -/
theorem items_segmentation (codec : Codec) (pieces : List ByteArray) :
    ∃ frames rest ending, codec.items pieces = (frames.map Prod.snd, ending) ∧
      codec.Segmentation (joined pieces) frames rest ∧
      (∀ others left, codec.Segmentation (joined pieces) others left →
        others = frames ∧ left = rest) ∧
      (ending = none ↔ rest = .empty) ∧
      (ending = none ↔ ∃ parts, joined parts = joined pieces ∧
        ∀ part ∈ parts, ∃ packet, codec.Accepts part packet) ∧
      (ending = some .cutOff ↔ rest ≠ .empty ∧ codec.Incomplete rest) ∧
      (¬ codec.Incomplete rest → ∃ error, ending = some error ∧ codec.Produces rest error) := by
  obtain ⟨frames, rest, tail, hsegmentation, hstops, hitems⟩ := codec.items_eq pieces
  refine ⟨frames, rest, ending tail, hitems, hsegmentation,
    fun others left hothers ↦ hsegmentation.unique hothers, ending_eq_none_iff hstops, ?_,
    ending_eq_cutOff_iff hstops, ?_⟩
  · rw [ending_eq_none_iff hstops, rest_eq_empty_iff hsegmentation]
  · intro hcomplete
    cases hstops with
    | waiting hincomplete => exact absurd hincomplete hcomplete
    | failing error hproduces => exact ⟨error, rfl, hproduces⟩

end TypedPacket.Codec
