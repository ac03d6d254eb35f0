import TypedPacket.Proofs.Stream.Peers

/-!
# The stream as a queue

A buffer that packets are written to and taken from is a queue of packets: it holds the frames of
those that were written and not yet taken, one after another (`Codec.Holds`). Each step keeps it so
(`Codec.perform_holds`), whatever the options it writes with, and so does every run of steps
(`Codec.run_holds`). What a run takes are then the first packets that it wrote, in their order
(`Codec.run_empty_queue`).
-/

set_option autoImplicit false
set_option relaxedAutoImplicit false

namespace TypedPacket.Codec

variable {codec : Codec} {buffer : ByteArray} {queue : List (WireOptions × Packet)}

/-! ### Steps and runs -/

/-- Packets are written as they are, or by a codec that tells of it. -/
inductive Writer
  | plain
  | codec

/-- A step on a buffer: a packet is written to its end with options of its own, or a packet is taken
from its front. -/
inductive Step
  | write (writer : Writer) (options : WireOptions) (packet : Packet)
  | decode

/-- The answer to a step. -/
inductive Reply
  | failed (error : PacketError)
  | appended (compressed : Bool)
  | encoded (notices : List Notice)
  | decoded (found : Option Packet)

/-- Takes a step. A packet is taken within the limit of the codec. -/
def perform (codec : Codec) (buffer : ByteArray) : Step → Reply × ByteArray
  | .write .plain options packet =>
    match packet.appendFrame codec.compressors options buffer with
    | (.error error, after) => (.failed error, after)
    | (.ok compressed, after) => (.appended compressed, after)
  | .write .codec options packet =>
    match Codec.append ⟨codec.compressors, options⟩ packet buffer with
    | (.error error, after) => (.failed error, after)
    | (.ok notices, after) => (.encoded notices, after)
  | .decode =>
    match codec.take buffer with
    | (.error error, after) => (.failed error, after)
    | (.ok found, after) => (.decoded found, after)

/-- Takes one step after another. -/
def run (codec : Codec) : List Step → ByteArray → List (Step × Reply) × ByteArray
  | [], buffer => ([], buffer)
  | step :: steps, buffer =>
    let (reply, after) := codec.perform buffer step
    let (history, last) := codec.run steps after
    ((step, reply) :: history, last)

/-- The packet that a step wrote, and how. -/
def wrote? : Step × Reply → Option (WireOptions × Packet)
  | (.decode, _) => none
  | (.write .., .failed _) => none
  | (.write _ options packet, _) => some (options, packet)

/-- The packet that a step took. -/
def took? : Step × Reply → Option Packet
  | (.decode, .decoded found) => found
  | _ => none

/-- The packets a run wrote. -/
def written (history : List (Step × Reply)) : List (WireOptions × Packet) :=
  history.filterMap wrote?

/-- The packets a run took. -/
def taken (history : List (Step × Reply)) : List Packet :=
  history.filterMap took?

theorem written_append (earlier later : List (Step × Reply)) :
    written (earlier ++ later) = written earlier ++ written later :=
  List.filterMap_append

theorem taken_append (earlier later : List (Step × Reply)) :
    taken (earlier ++ later) = taken earlier ++ taken later :=
  List.filterMap_append

/-! ### Buffers that hold packets -/

/-- A packet that the codec can take once it is written: it has the version of the wire format, its
payload is within the limit, the size of that fits in its field, and the compressor that is asked for
restores it. -/
structure Admits (codec : Codec) (options : WireOptions) (packet : Packet) : Prop where
  version_eq : packet.version = FramePrefix.version
  within_limit : packet.payload.size ≤ codec.options.maxPayloadSize
  within_field : packet.payload.size < 2 ^ 32
  restores : ∀ kind ∈ options.compression, codec.compressors.Restores kind packet.payload

/-- The buffer is the frames of the packets, one after another. -/
inductive Holds (codec : Codec) : ByteArray → List (WireOptions × Packet) → Prop
  | nil : Holds codec .empty []
  | cons {options : WireOptions} {packet : Packet} {frame rest : ByteArray}
      {later : List (WireOptions × Packet)} (hadmits : codec.Admits options packet)
      (hframe : packet.toFrame codec.compressors options = .ok frame)
      (hrest : Holds codec rest later) : Holds codec (frame ++ rest) ((options, packet) :: later)

/-- A frame that is written goes to the end of the queue. -/
theorem Holds.append (hholds : codec.Holds buffer queue) {options : WireOptions} {packet : Packet}
    (hadmits : codec.Admits options packet) {frame : ByteArray}
    (hframe : packet.toFrame codec.compressors options = .ok frame) :
    codec.Holds (buffer ++ frame) (queue ++ [(options, packet)]) := by
  induction hholds with
  | nil =>
    rw [ByteArray.empty_append, ← ByteArray.append_empty (b := frame)]
    exact .cons hadmits hframe .nil
  | cons hfirst hsent hrest ih =>
    rw [ByteArray.append_assoc]
    exact .cons hfirst hsent ih

/-- The oldest packet is taken, and its frame is gone. -/
theorem take_of_admits {options : WireOptions} {packet : Packet}
    (hadmits : codec.Admits options packet) {frame : ByteArray}
    (hframe : packet.toFrame codec.compressors options = .ok frame) (rest : ByteArray) :
    codec.take (frame ++ rest) = (.ok (some packet), rest) := by
  obtain ⟨prepared, hprepared, rfl⟩ := Packet.toFrame_eq_ok_iff.mp hframe
  have hsent : prepared.body.size ≤ packet.payload.size :=
    (Packet.prepares_of_prepare hprepared).sends.size_le
  rw [take_append_of_prepare hprepared hadmits.version_eq hadmits.within_field hadmits.restores
    (Nat.le_trans hsent hadmits.within_limit), if_pos hadmits.within_limit]

/-! ### One step -/

/-- The steps that keep a buffer within what the codec can take. -/
def Allows (codec : Codec) : Step → Prop
  | .write _ options packet => codec.Admits options packet
  | .decode => True

/-- A write appends a frame, or fails and leaves the buffer as it was. -/
theorem perform_write (codec : Codec) (buffer : ByteArray) (writer : Writer) (options : WireOptions)
    (packet : Packet) :
    (∃ error, codec.perform buffer (.write writer options packet) = (.failed error, buffer)) ∨
      ∃ reply frame, packet.toFrame codec.compressors options = .ok frame ∧
        codec.perform buffer (.write writer options packet) = (reply, buffer ++ frame) ∧
        wrote? (.write writer options packet, reply) = some (options, packet) := by
  cases writer with
  | plain =>
    rcases Packet.appendFrame_cases codec.compressors options packet buffer with
      ⟨error, happend⟩ | ⟨compressed, frame, hframe, happend⟩
    · exact .inl ⟨error, by simp only [perform, happend]⟩
    · exact .inr ⟨.appended compressed, frame, hframe, by simp only [perform, happend], rfl⟩
  | codec =>
    rcases append_cases ⟨codec.compressors, options⟩ packet buffer with
      ⟨error, happend⟩ | ⟨notices, frame, hframe, happend⟩
    · exact .inl ⟨error, by simp only [perform, happend]⟩
    · exact .inr ⟨.encoded notices, frame, hframe, by simp only [perform, happend], rfl⟩

/-- Taking from a buffer that holds packets never fails: it gives the oldest, or tells that there is
none. -/
theorem perform_decode (hholds : codec.Holds buffer queue) :
    queue = [] ∧ codec.perform buffer .decode = (.decoded none, buffer) ∨
      ∃ options packet later frame rest, queue = (options, packet) :: later ∧
        packet.toFrame codec.compressors options = .ok frame ∧ buffer = frame ++ rest ∧
        codec.Holds rest later ∧ codec.perform buffer .decode = (.decoded (some packet), rest) := by
  cases hholds with
  | nil => exact .inl ⟨rfl, rfl⟩
  | cons hadmits hframe hrest =>
    refine .inr ⟨_, _, _, _, _, rfl, hframe, rfl, hrest, ?_⟩
    simp only [perform, take_of_admits hadmits hframe]

/-- A step on a buffer that holds packets writes at the end of the queue and takes from its front.
-/
theorem perform_holds {step : Step} (hallows : codec.Allows step)
    (hholds : codec.Holds buffer queue) :
    ∃ front pending, queue ++ written [(step, (codec.perform buffer step).1)] = front ++ pending ∧
      taken [(step, (codec.perform buffer step).1)] = front.map Prod.snd ∧
      codec.Holds (codec.perform buffer step).2 pending := by
  cases step with
  | write writer options packet =>
    rcases perform_write codec buffer writer options packet with
      ⟨error, hperform⟩ | ⟨reply, frame, hframe, hperform, hwrote⟩
    · rw [hperform]
      exact ⟨[], queue, List.append_nil _, rfl, hholds⟩
    · rw [hperform, written, List.filterMap_cons_some hwrote]
      exact ⟨[], queue ++ [(options, packet)], rfl, rfl, hholds.append hallows hframe⟩
  | decode =>
    rcases perform_decode hholds with
      ⟨rfl, hperform⟩ | ⟨options, packet, later, frame, rest, rfl, -, -, hrest, hperform⟩
    · rw [hperform]
      exact ⟨[], [], rfl, rfl, hholds⟩
    · rw [hperform]
      exact ⟨[(options, packet)], later, List.append_nil _, rfl, hrest⟩

/-- A write that fails leaves the buffer as it was. -/
theorem eq_of_perform_failed {step : Step} (hwrites : step ≠ .decode) {error : PacketError}
    {after : ByteArray} (h : codec.perform buffer step = (.failed error, after)) :
    after = buffer := by
  cases step with
  | write writer options packet =>
    rcases perform_write codec buffer writer options packet with
      ⟨cause, hperform⟩ | ⟨reply, frame, -, hperform, hwrote⟩
    · rw [hperform] at h
      exact (Prod.mk.inj h).2.symm
    · rw [hperform] at h
      rw [(Prod.mk.inj h).1] at hwrote
      cases hwrote
  | decode => exact absurd rfl hwrites

/-! ### Runs -/

/-- A run from a buffer that holds packets takes the first of those and of what it writes, and
leaves the others. -/
theorem run_holds {steps : List Step} (hallows : ∀ step ∈ steps, codec.Allows step)
    (hholds : codec.Holds buffer queue) :
    ∃ front pending, queue ++ written (codec.run steps buffer).1 = front ++ pending ∧
      taken (codec.run steps buffer).1 = front.map Prod.snd ∧
      codec.Holds (codec.run steps buffer).2 pending := by
  induction steps generalizing buffer queue with
  | nil => exact ⟨[], queue, List.append_nil _, rfl, hholds⟩
  | cons step steps ih =>
    obtain ⟨first, middle, hwrote, htook, hmiddle⟩ :=
      perform_holds (hallows step List.mem_cons_self) hholds
    obtain ⟨later, pending, hwritten, htaken, hpending⟩ :=
      ih (fun step hmem ↦ hallows step (List.mem_cons_of_mem _ hmem)) hmiddle
    have hrun : codec.run (step :: steps) buffer =
        ([(step, (codec.perform buffer step).1)] ++
          (codec.run steps (codec.perform buffer step).2).1,
          (codec.run steps (codec.perform buffer step).2).2) := rfl
    rw [hrun]
    refine ⟨first ++ later, pending, ?_, ?_, hpending⟩
    · rw [written_append, ← List.append_assoc, hwrote, List.append_assoc, hwritten,
        List.append_assoc]
    · rw [taken_append, htook, htaken, List.map_append]

/-- The stream is a queue of packets. Assumes: every packet to write has the version of the wire
format, as all have that can be had, and a payload within the limit of the codec whose size fits in
its field, and that is restored by the compressor that is asked for. After any run from an empty
buffer, the packets taken are the first of those written, and the buffer is the frames of the
others. A write that fails changes nothing, and a packet is there to take unless all were taken: the
oldest, and only its frame goes. -/
theorem run_empty_queue (codec : Codec) (steps : List Step) (history : List (Step × Reply))
    (buffer : ByteArray) (hallows : ∀ step ∈ steps, codec.Allows step)
    (hrun : codec.run steps .empty = (history, buffer)) :
    ∃ front pending, written history = front ++ pending ∧ taken history = front.map Prod.snd ∧
      codec.Holds buffer pending ∧
      (∀ step error after, step ≠ .decode →
        codec.perform buffer step = (.failed error, after) → after = buffer) ∧
      (pending = [] ↔ codec.perform buffer .decode = (.decoded none, buffer)) ∧
      ∀ options packet later, pending = (options, packet) :: later →
        ∃ frame rest, packet.toFrame codec.compressors options = .ok frame ∧
          buffer = frame ++ rest ∧ codec.Holds rest later ∧
          codec.perform buffer .decode = (.decoded (some packet), rest) := by
  obtain ⟨front, pending, hwritten, htaken, hholds⟩ := run_holds hallows Holds.nil
  rw [hrun] at hwritten htaken hholds
  refine ⟨front, pending, hwritten, htaken, hholds, ?_, ?_, ?_⟩
  · intro step error after hwrites hfailed
    exact eq_of_perform_failed hwrites hfailed
  · rcases perform_decode hholds with
      ⟨hempty, hperform⟩ | ⟨options, packet, later, frame, rest, hfull, -, -, -, hperform⟩
    · exact iff_of_true hempty hperform
    · rw [hfull, hperform]
      exact iff_of_false nofun nofun
  · rintro options packet later rfl
    rcases perform_decode hholds with
      ⟨hempty, -⟩ | ⟨_, _, _, frame, rest, hfull, hframe, hbuffer, hrest, hperform⟩
    · cases hempty
    · cases hfull
      exact ⟨frame, rest, hframe, hbuffer, hrest, hperform⟩

/-- A packet that was compressed waits in the buffer through a write that fails, and is then taken.
-/
theorem run_empty_queue_blank :
    let codec : Codec := ⟨.standard, ⟨none, 0, 48⟩⟩
    codec.Holds Packet.shortened.bytes [(⟨some .zstd, 0, 48⟩, Packet.blank 48)] ∧
      ∃ rest, codec.perform Packet.shortened.bytes .decode =
        (.decoded (some (Packet.blank 48)), rest) := by
  intro codec
  have hlong : codec.Admits ⟨some .zstd, 0, 48⟩ (Packet.blank 48) :=
    ⟨rfl, by decide, by decide, Packet.restores_blank⟩
  have hplain : codec.Admits ⟨none, 0, 32⟩ (Packet.blank 48) := ⟨rfl, by decide, by decide, nofun⟩
  have happend : (Packet.blank 48).appendFrame .standard ⟨some .zstd, 0, 48⟩ .empty =
      (.ok true, Packet.shortened.bytes) := by
    have hprepared : (Packet.blank 48).prepare .standard ⟨some .zstd, 0, 48⟩ =
        .ok Packet.shortened := Packet.prepare_blank (by decide)
    simp only [Packet.appendFrame, hprepared, ByteArray.empty_append]
    rfl
  have hfails : Codec.append ⟨.standard, ⟨none, 0, 32⟩⟩ (Packet.blank 48) Packet.shortened.bytes =
      (.error (.oversized 48), Packet.shortened.bytes) := rfl
  have hrun : codec.run [.write .plain ⟨some .zstd, 0, 48⟩ (Packet.blank 48),
        .write .codec ⟨none, 0, 32⟩ (Packet.blank 48)] .empty =
      ([(.write .plain ⟨some .zstd, 0, 48⟩ (Packet.blank 48), .appended true),
        (.write .codec ⟨none, 0, 32⟩ (Packet.blank 48), .failed (.oversized 48))],
        Packet.shortened.bytes) := by
    simp only [run, perform, codec, happend, hfails]
  have hallows : ∀ step ∈ [Step.write .plain ⟨some .zstd, 0, 48⟩ (Packet.blank 48),
      .write .codec ⟨none, 0, 32⟩ (Packet.blank 48)], codec.Allows step := by
    rw [List.forall_mem_cons, List.forall_mem_cons]
    exact ⟨hlong, hplain, fun step hmem ↦ absurd hmem List.not_mem_nil⟩
  obtain ⟨front, pending, hwritten, htaken, hholds, -, -, holdest⟩ :=
    run_empty_queue codec _ _ _ hallows hrun
  obtain rfl := List.map_eq_nil_iff.mp htaken.symm
  obtain rfl : pending = [(⟨some .zstd, 0, 48⟩, Packet.blank 48)] := hwritten.symm
  obtain ⟨frame, rest, -, -, -, hperform⟩ := holdest _ _ _ rfl
  exact ⟨hholds, rest, hperform⟩

end TypedPacket.Codec
