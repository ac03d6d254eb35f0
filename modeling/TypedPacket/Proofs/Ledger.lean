import TypedPacket.Metrics
import TypedPacket.Proofs.Factory
import TypedPacket.Proofs.Stream.Effects

/-!
# The ledger of a run

Factories and codecs count into the same metrics. The outcomes of a call are told apart by what it
returns and which notices are counted (`Ledger.Tells`). A counter is a reading of the metrics with a
measure of the calls, and the two agree on every call (`Ledger.Counter.value_step`). So over any run
a counter grows by the total of its measures over the history of the run, modulo `2 ^ 64`
(`Ledger.Counter.value_run`), and `Ledger.run_metrics` says so of eight counters at once.
-/

set_option autoImplicit false
set_option relaxedAutoImplicit false

namespace TypedPacket

/-! ### Metrics as sums -/

namespace Metrics

/-- The sums of the counters. -/
def add (metrics other : Metrics) : Metrics :=
  ⟨metrics.packetsBuilt + other.packetsBuilt, metrics.typeErrors + other.typeErrors,
    metrics.statusErrors + other.statusErrors, metrics.bytesSerialized + other.bytesSerialized,
    metrics.packetsEncoded + other.packetsEncoded, metrics.packetsDecoded + other.packetsDecoded,
    metrics.decodeErrors + other.decodeErrors, metrics.compressionTotal + other.compressionTotal,
    metrics.compressionSuccess + other.compressionSuccess⟩

theorem add_zero (metrics : Metrics) : metrics.add zero = metrics := by
  simp [add, zero]

theorem add_assoc (first second third : Metrics) :
    (first.add second).add third = first.add (second.add third) := by
  simp [add, UInt64.add_assoc]

/-- A notice adds what it adds to nothing. -/
theorem count_eq_add (metrics : Metrics) (notice : Notice) :
    metrics.count notice = metrics.add (zero.count notice) := by
  cases notice with
  | encoded attempted _ => cases attempted <;> simp [count, compression, add, zero]
  | _ => simp [count, add, zero]

/-- Every packet on the wire is counted, and the outcomes of compression where it was asked for. -/
theorem countAll_encoded (attempted compressed : Bool) :
    zero.countAll [.encoded attempted compressed] =
      { zero with
        packetsEncoded := 1
        compressionTotal := UInt64.ofNat attempted.toNat
        compressionSuccess := UInt64.ofNat (attempted && compressed).toNat } := by
  cases attempted <;> cases compressed <;> rfl

theorem countAll_eq_add (metrics : Metrics) (notices : List Notice) :
    metrics.countAll notices = metrics.add (zero.countAll notices) := by
  induction notices generalizing metrics with
  | nil => exact metrics.add_zero.symm
  | cons notice notices ih =>
    calc metrics.countAll (notice :: notices)
        = (metrics.count notice).countAll notices := rfl
      _ = metrics.add ((zero.count notice).add (zero.countAll notices)) := by
        rw [ih, count_eq_add, add_assoc]
      _ = metrics.add (zero.countAll (notice :: notices)) := by rw [← ih]; rfl

end Metrics

/-! ### Calls -/

namespace Ledger

/-- A call on a factory or on a codec, each with settings of its own, or anything else that leaves
another buffer behind. A build takes place at a time since 1970, or at one that cannot be told. -/
inductive Call
  | build (factory : Factory) (elapsed : Option (Nat × Nat)) (options : PacketOptions)
      (payload : Payload)
  | make (factory : Factory) (elapsed : Option (Nat × Nat)) (candidate : Candidate)
  | encode (codec : Codec) (packet : Packet)
  | decode (codec : Codec)
  /-- Decodes from a buffer that no more octets will reach. -/
  | decodeLast (codec : Codec)
  | replace (buffer : ByteArray)

/-- A decode that no more octets will follow. -/
def Call.isLast : Call → Bool
  | .decodeLast _ => true
  | _ => false

/-- What a call returns. -/
inductive Reply
  | built (result : Except PacketError Packet)
  | encoded (result : Except PacketError Unit)
  | decoded (result : Except PacketError (Option Packet))
  | replaced

/-- What a call returns, the buffer that it leaves, and what there is to count. -/
structure Outcome where
  reply : Reply
  buffer : ByteArray
  notices : List Notice

/-- Answers a call on a buffer. -/
def answer (buffer : ByteArray) : Call → Outcome
  | .build factory elapsed options payload =>
    let outcome := factory.build (.ofElapsed elapsed) options payload
    ⟨.built outcome.1, buffer, outcome.2⟩
  | .make factory elapsed candidate =>
    let outcome := factory.make (.ofElapsed elapsed) candidate
    ⟨.built outcome.1, buffer, outcome.2⟩
  | .encode codec packet =>
    match codec.append packet buffer with
    | (.error error, after) => ⟨.encoded (.error error), after, []⟩
    | (.ok notices, after) => ⟨.encoded (.ok ()), after, notices⟩
  | .decode codec =>
    let outcome := codec.take buffer
    ⟨.decoded outcome.1, outcome.2, Codec.notices outcome⟩
  | .decodeLast codec =>
    let outcome := codec.takeLast buffer
    ⟨.decoded outcome.1.1, outcome.1.2, outcome.2⟩
  | .replace other => ⟨.replaced, other, []⟩

/-- The octets that came to the end of a buffer. -/
def appended (before after : ByteArray) : ByteArray := after.extract before.size after.size

theorem appended_append (before frame : ByteArray) : appended before (before ++ frame) = frame :=
  ByteArray.extract_append_eq_right rfl ByteArray.size_append

/-- What the outcome of a call can be. -/
inductive Tells (buffer : ByteArray) : Call → Outcome → Prop
  | built (call : Call) (kind : PayloadKind) (packet : Packet) :
      Tells buffer call ⟨.built (.ok packet), buffer, [.built kind packet.payload.size]⟩
  | foreign (call : Call) (typeName : String) :
      Tells buffer call ⟨.built (.error (.unsupportedType typeName)), buffer,
        [.foreignType (.unsupportedType typeName)]⟩
  | rejected (call : Call) (kind : PayloadKind) (status : Status) :
      Tells buffer call ⟨.built (.error (.status status)), buffer, [.rejected kind status]⟩
  | kindChanged (call : Call) (status : Status) :
      Tells buffer call ⟨.built (.error (.status status)), buffer, [.kindChanged]⟩
  /-- The series, the clock or the size of the header stood in the way. -/
  | unassembled (call : Call) (error : PacketError) (htype : error.isTypeError = false) :
      Tells buffer call ⟨.built (.error error), buffer, []⟩
  | encoded (codec : Codec) (packet : Packet) (frame : ByteArray) (compressed : Bool)
      (hflag : compressed = true ↔ octetAt frame 5 ≠ 0) :
      Tells buffer (.encode codec packet) ⟨.encoded (.ok ()), buffer ++ frame,
        [.encoded codec.options.compression.isSome compressed]⟩
  | unencoded (codec : Codec) (packet : Packet) (error : PacketError) :
      Tells buffer (.encode codec packet) ⟨.encoded (.error error), buffer, []⟩
  | decoded (call : Call) (packet : Packet) (after : ByteArray) :
      Tells buffer call ⟨.decoded (.ok (some packet)), after,
        [.decoded packet.kind packet.payload.size]⟩
  | waiting (call : Call) : Tells buffer call ⟨.decoded (.ok none), buffer, []⟩
  | undecodable (call : Call) (error : PacketError) (after : ByteArray) (herror : error ≠ .cutOff) :
      Tells buffer call ⟨.decoded (.error error), after, [.undecodable error after.size]⟩
  | cutOff (codec : Codec) :
      Tells buffer (.decodeLast codec) ⟨.decoded (.error .cutOff), buffer, []⟩
  | replaced (other : ByteArray) : Tells buffer (.replace other) ⟨.replaced, other, []⟩

end Ledger

/-! ### What calls tell -/

/-- What stands in the way of a packet is no type. -/
theorem Factory.Obstructs.isTypeError {factory : Factory} {elapsed : Option (Nat × Nat)}
    {options : PacketOptions} {error : PacketError}
    (h : factory.Obstructs (.ofElapsed elapsed) options error) : error.isTypeError = false := by
  cases h with
  | series | header => rfl
  | clock _ _ hclock =>
    cases elapsed with
    | none =>
      cases hclock
      rfl
    | some elapsed => cases hclock

/-- No octets are refused as a stream that ends too early before they end. -/
theorem Codec.ne_cutOff_of_take {codec : Codec} {buffer after : ByteArray} {error : PacketError}
    (h : codec.take buffer = (.error error, after)) : error ≠ .cutOff := by
  cases take_eq_iff_effect.mp h with
  | refuses _ hparse => exact (Produces.ofPrefix hparse).ne_cutOff
  | drops frame rest _ hbuffer hwhole hopened =>
    obtain ⟨pre, hparse, hsize⟩ := hwhole
    exact (Produces.ofFrame pre frame _ hbuffer hparse hsize hopened).ne_cutOff

/-- While a packet is waited for, the buffer stays as it is. -/
theorem Codec.eq_of_take_none {codec : Codec} {buffer after : ByteArray}
    (h : codec.take buffer = (.ok none, after)) : after = buffer := by
  cases take_eq_iff_effect.mp h with
  | waits => rfl

namespace Ledger

variable {buffer : ByteArray}

theorem tells_build (call : Call) (factory : Factory) (elapsed : Option (Nat × Nat))
    (options : PacketOptions) (payload : Payload) :
    Tells buffer call ⟨.built (factory.build (.ofElapsed elapsed) options payload).1, buffer,
      (factory.build (.ofElapsed elapsed) options payload).2⟩ := by
  have hends := factory.ends (.ofElapsed elapsed) options payload
  generalize factory.build (.ofElapsed elapsed) options payload = outcome at hends ⊢
  cases hends with
  | rejected status => exact .rejected call payload.kind status
  | kindChanged => exact .kindChanged call _
  | obstructed error _ hobstructs => exact .unassembled call error hobstructs.isTypeError
  | built packet => exact .built call payload.kind packet

theorem tells_encode (codec : Codec) (packet : Packet) :
    Tells buffer (.encode codec packet) (answer buffer (.encode codec packet)) := by
  cases hprepare : packet.prepare codec.compressors codec.options with
  | error error =>
    simp only [answer, Codec.append, Packet.appendFrame, hprepare]
    exact .unencoded codec packet error
  | ok prepared =>
    simp only [answer, Codec.append, Packet.appendFrame, hprepare]
    refine .encoded codec packet prepared.bytes prepared.compression.isSome ?_
    rw [prepared.octetAt_flag, ne_eq, FramePrefix.flag_eq_zero_iff]
    exact Option.isSome_iff_ne_none

theorem tells_take (call : Call) (codec : Codec) :
    Tells buffer call ⟨.decoded (codec.take buffer).1, (codec.take buffer).2,
      Codec.notices (codec.take buffer)⟩ := by
  cases htake : codec.take buffer with
  | mk outcome after =>
    rcases outcome with error | _ | packet
    · exact .undecodable call error after (Codec.ne_cutOff_of_take htake)
    · obtain rfl := Codec.eq_of_take_none htake
      exact .waiting call
    · exact .decoded call packet after

theorem tells_takeLast (codec : Codec) :
    Tells buffer (.decodeLast codec) (answer buffer (.decodeLast codec)) := by
  have htells : Tells buffer (.decodeLast codec) _ := tells_take (.decodeLast codec) codec
  cases htake : codec.take buffer with
  | mk outcome after =>
    rw [htake] at htells
    rcases outcome with error | _ | packet
    · simp only [answer, Codec.takeLast, htake]
      exact htells
    · obtain rfl := Codec.eq_of_take_none htake
      simp only [answer, Codec.takeLast, htake]
      split
      · exact htells
      · exact .cutOff codec
    · simp only [answer, Codec.takeLast, htake]
      exact htells

/-- The outcome of a call is one of those. -/
theorem tells (buffer : ByteArray) (call : Call) : Tells buffer call (answer buffer call) := by
  cases call with
  | build factory elapsed options payload => exact tells_build _ factory elapsed options payload
  | make factory elapsed candidate =>
    cases candidate with
    | payload payload => exact tells_build _ factory elapsed .default payload
    | foreign typeName => exact .foreign _ typeName
  | encode codec packet => exact tells_encode codec packet
  | decode codec => exact tells_take _ codec
  | decodeLast codec => exact tells_takeLast codec
  | replace other => exact .replaced other

/-! ### Runs -/

/-- A call of a run: what it returned, and the buffer before and after it. -/
structure Entry where
  call : Call
  reply : Reply
  before : ByteArray
  after : ByteArray

/-- The buffer at hand and the metrics that all the calls of a run count into. -/
structure State where
  buffer : ByteArray
  metrics : Metrics

def step (state : State) (call : Call) : Entry × State :=
  let outcome := answer state.buffer call
  (⟨call, outcome.reply, state.buffer, outcome.buffer⟩,
    ⟨outcome.buffer, state.metrics.countAll outcome.notices⟩)

/-- The history of a run, and the state after it. -/
def run (state : State) : List Call → List Entry × State
  | [] => ([], state)
  | call :: calls =>
    let (entry, next) := step state call
    let (history, last) := run next calls
    (entry :: history, last)

/-! ### What is measured of an entry -/

namespace Entry

/-- A build that returned a packet. -/
def builds (entry : Entry) : Bool :=
  match entry.reply with
  | .built (.ok _) => true
  | _ => false

/-- The octets of the payload that a build put into a packet. -/
def payloadSize (entry : Entry) : Nat :=
  match entry.reply with
  | .built (.ok packet) => packet.payload.size
  | _ => 0

/-- A build of a value of a foreign type. -/
def failsOnType (entry : Entry) : Bool :=
  match entry.reply with
  | .built (.error error) => error.isTypeError
  | _ => false

/-- An encode that succeeded. -/
def encodes (entry : Entry) : Bool :=
  match entry.reply with
  | .encoded (.ok _) => true
  | _ => false

/-- An encode that succeeded and was asked to compress. -/
def compresses (entry : Entry) : Bool :=
  entry.encodes &&
    match entry.call with
    | .encode codec _ => codec.options.compression.isSome
    | _ => false

/-- An encode that succeeded, was asked to compress and appended a frame whose flag is set. -/
def flags (entry : Entry) : Bool :=
  entry.compresses && decide (octetAt (appended entry.before entry.after) 5 ≠ 0)

/-- A decode that returned a packet. -/
def decodes (entry : Entry) : Bool :=
  match entry.reply with
  | .decoded (.ok (some _)) => true
  | _ => false

/-- A decode that returned an error, other than for the octets left over at the end. -/
def refuses (entry : Entry) : Bool :=
  match entry.reply with
  | .decoded (.error error) => !(entry.call.isLast && decide (error = .cutOff))
  | _ => false

end Entry

/-- What a measure of the entries comes to over a history. -/
def total (measure : Entry → Nat) : List Entry → Nat
  | [] => 0
  | entry :: history => measure entry + total measure history

/-- A total of ones counts. -/
theorem total_toNat (p : Entry → Bool) (history : List Entry) :
    total (fun entry ↦ (p entry).toNat) history = history.countP p := by
  induction history with
  | nil => rfl
  | cons entry history ih =>
    rw [total, ih, List.countP_cons, Nat.add_comm]
    cases p entry <;> rfl

/-! ### Counters -/

/-- What a call adds to the counters, by what is measured of its entry. Of statuses nothing is
said. -/
def Entry.gain (entry : Entry) (statusErrors : UInt64) : Metrics where
  packetsBuilt := UInt64.ofNat entry.builds.toNat
  typeErrors := UInt64.ofNat entry.failsOnType.toNat
  statusErrors := statusErrors
  bytesSerialized := UInt64.ofNat entry.payloadSize
  packetsEncoded := UInt64.ofNat entry.encodes.toNat
  packetsDecoded := UInt64.ofNat entry.decodes.toNat
  decodeErrors := UInt64.ofNat entry.refuses.toNat
  compressionTotal := UInt64.ofNat entry.compresses.toNat
  compressionSuccess := UInt64.ofNat entry.flags.toNat

/-- The notices of a call come to what is measured of its entry. -/
theorem Tells.exists_gain {before : ByteArray} {call : Call} {outcome : Outcome}
    (h : Tells before call outcome) : ∃ statusErrors, Metrics.zero.countAll outcome.notices =
      Entry.gain ⟨call, outcome.reply, before, outcome.buffer⟩ statusErrors := by
  cases h with
  | built call kind packet =>
    have hsize : 0 + UInt64.ofNat packet.payload.size = UInt64.ofNat packet.payload.size :=
      UInt64.zero_add _
    exact ⟨0, congrArg (fun size ↦ { Metrics.zero with
      packetsBuilt := 1, bytesSerialized := size }) hsize⟩
  | foreign | rejected | kindChanged | unencoded | decoded | waiting | cutOff | replaced =>
    exact ⟨_, rfl⟩
  | unassembled _ error htype =>
    have hfails : Entry.failsOnType ⟨call, .built (.error error), before, before⟩ = false := htype
    refine ⟨0, ?_⟩
    simp only [Entry.gain, hfails]
    rfl
  | encoded codec packet frame compressed hflag =>
    have hcompressed : compressed = decide (octetAt frame 5 ≠ 0) := by
      rw [Bool.eq_iff_iff, hflag, decide_eq_true_iff]
    refine ⟨0, ?_⟩
    simp only [Metrics.countAll_encoded, Entry.gain, Entry.flags, appended_append, ← hcompressed]
    rfl
  | undecodable _ error after herror =>
    have hrefuses : Entry.refuses ⟨call, .decoded (.error error), before, after⟩ = true := by
      simp [Entry.refuses, herror]
    refine ⟨0, ?_⟩
    simp only [Entry.gain, hrefuses]
    rfl

/-- A reading of the metrics and a measure of the entries of a run, of which it reads the gain. -/
structure Counter where
  value : Metrics → UInt64
  measure : Entry → Nat
  value_add : ∀ metrics other : Metrics, value (metrics.add other) = value metrics + value other
  value_gain : ∀ entry statusErrors,
    value (Entry.gain entry statusErrors) = UInt64.ofNat (measure entry)

namespace Counter

variable (counter : Counter)

/-- A call adds its measure to a counter. -/
theorem value_step (state : State) (call : Call) :
    counter.value (step state call).2.metrics =
      counter.value state.metrics + UInt64.ofNat (counter.measure (step state call).1) := by
  obtain ⟨statusErrors, hgain⟩ := (tells state.buffer call).exists_gain
  rw [step, Metrics.countAll_eq_add, counter.value_add, hgain, counter.value_gain]

/-- A run adds the measures of its history to a counter. -/
theorem value_run (state : State) (calls : List Call) :
    counter.value (run state calls).2.metrics =
      counter.value state.metrics +
        UInt64.ofNat (total counter.measure (run state calls).1) := by
  induction calls generalizing state with
  | nil => exact (UInt64.add_zero _).symm
  | cons call calls ih =>
    calc counter.value (run state (call :: calls)).2.metrics
        = counter.value (step state call).2.metrics +
            UInt64.ofNat (total counter.measure (run (step state call).2 calls).1) := ih _
      _ = counter.value state.metrics +
            UInt64.ofNat (total counter.measure (run state (call :: calls)).1) := by
        rw [counter.value_step, UInt64.add_assoc, ← UInt64.ofNat_add]
        rfl

def packetsBuilt : Counter :=
  ⟨Metrics.packetsBuilt, fun entry ↦ entry.builds.toNat, fun _ _ ↦ rfl, fun _ _ ↦ rfl⟩

def bytesSerialized : Counter :=
  ⟨Metrics.bytesSerialized, Entry.payloadSize, fun _ _ ↦ rfl, fun _ _ ↦ rfl⟩

def typeErrors : Counter :=
  ⟨Metrics.typeErrors, fun entry ↦ entry.failsOnType.toNat, fun _ _ ↦ rfl, fun _ _ ↦ rfl⟩

def packetsEncoded : Counter :=
  ⟨Metrics.packetsEncoded, fun entry ↦ entry.encodes.toNat, fun _ _ ↦ rfl, fun _ _ ↦ rfl⟩

def compressionTotal : Counter :=
  ⟨Metrics.compressionTotal, fun entry ↦ entry.compresses.toNat, fun _ _ ↦ rfl, fun _ _ ↦ rfl⟩

def compressionSuccess : Counter :=
  ⟨Metrics.compressionSuccess, fun entry ↦ entry.flags.toNat, fun _ _ ↦ rfl, fun _ _ ↦ rfl⟩

def packetsDecoded : Counter :=
  ⟨Metrics.packetsDecoded, fun entry ↦ entry.decodes.toNat, fun _ _ ↦ rfl, fun _ _ ↦ rfl⟩

def decodeErrors : Counter :=
  ⟨Metrics.decodeErrors, fun entry ↦ entry.refuses.toNat, fun _ _ ↦ rfl, fun _ _ ↦ rfl⟩

end Counter

/-- After the history of a run, the counters are what happened in it, modulo `2 ^ 64`. -/
structure Balanced (history : List Entry) (metrics : Metrics) : Prop where
  packetsBuilt : metrics.packetsBuilt = UInt64.ofNat (history.countP Entry.builds)
  bytesSerialized : metrics.bytesSerialized = UInt64.ofNat (total Entry.payloadSize history)
  typeErrors : metrics.typeErrors = UInt64.ofNat (history.countP Entry.failsOnType)
  packetsEncoded : metrics.packetsEncoded = UInt64.ofNat (history.countP Entry.encodes)
  compressionTotal : metrics.compressionTotal = UInt64.ofNat (history.countP Entry.compresses)
  compressionSuccess : metrics.compressionSuccess = UInt64.ofNat (history.countP Entry.flags)
  packetsDecoded : metrics.packetsDecoded = UInt64.ofNat (history.countP Entry.decodes)
  decodeErrors : metrics.decodeErrors = UInt64.ofNat (history.countP Entry.refuses)

theorem balanced_run (buffer : ByteArray) (calls : List Call) :
    Balanced (run ⟨buffer, .zero⟩ calls).1 (run ⟨buffer, .zero⟩ calls).2.metrics := by
  have hvalue : ∀ counter : Counter, counter.value .zero = 0 →
      counter.value (run ⟨buffer, .zero⟩ calls).2.metrics =
        UInt64.ofNat (total counter.measure (run ⟨buffer, .zero⟩ calls).1) := by
    intro counter hzero
    rw [counter.value_run, hzero, UInt64.zero_add]
  have hcount : ∀ (counter : Counter) (p : Entry → Bool), counter.value .zero = 0 →
      (counter.measure = fun entry ↦ (p entry).toNat) →
      counter.value (run ⟨buffer, .zero⟩ calls).2.metrics =
        UInt64.ofNat ((run ⟨buffer, .zero⟩ calls).1.countP p) := by
    intro counter p hzero hmeasure
    rw [hvalue counter hzero, hmeasure, total_toNat]
  exact {
    packetsBuilt := hcount .packetsBuilt _ rfl rfl
    bytesSerialized := hvalue .bytesSerialized rfl
    typeErrors := hcount .typeErrors _ rfl rfl
    packetsEncoded := hcount .packetsEncoded _ rfl rfl
    compressionTotal := hcount .compressionTotal _ rfl rfl
    compressionSuccess := hcount .compressionSuccess _ rfl rfl
    packetsDecoded := hcount .packetsDecoded _ rfl rfl
    decodeErrors := hcount .decodeErrors _ rfl rfl }

/-- A build that fails leaves everything as it is, except that it counts a foreign type, and perhaps
a status. -/
theorem step_of_unbuilt {state : State} {call : Call} {error : PacketError}
    (h : (step state call).1.reply = .built (.error error)) :
    (step state call).2.buffer = state.buffer ∧ ∃ statusErrors,
      (step state call).2.metrics =
        { state.metrics with
          typeErrors := if error.isTypeError then state.metrics.typeErrors + 1
            else state.metrics.typeErrors
          statusErrors := statusErrors } := by
  have htells := tells state.buffer call
  simp only [step] at h ⊢
  generalize answer state.buffer call = outcome at h htells ⊢
  cases htells <;> cases h
  case foreign typeName => exact ⟨rfl, _, rfl⟩
  case rejected kind status => exact ⟨rfl, _, rfl⟩
  case kindChanged status => exact ⟨rfl, _, rfl⟩
  case unassembled htype =>
    rw [htype]
    exact ⟨rfl, _, rfl⟩

theorem step_of_unencoded {state : State} {call : Call} {error : PacketError}
    (h : (step state call).1.reply = .encoded (.error error)) : (step state call).2 = state := by
  have htells := tells state.buffer call
  simp only [step] at h ⊢
  generalize answer state.buffer call = outcome at h htells ⊢
  cases htells <;> cases h
  rfl

/-- The metrics are an exact ledger of a run. For any calls in any order, each with settings of its
own, and from any buffer: if nothing was counted before, each of eight counters is what the history
of the run says of it, modulo `2 ^ 64`. From there a build that fails leaves the buffer and counts
nothing but a foreign type, statuses apart, and an encode that fails changes nothing at all. -/
theorem run_metrics (buffer : ByteArray) (calls : List Call) :
    let last := (run ⟨buffer, .zero⟩ calls).2
    Balanced (run ⟨buffer, .zero⟩ calls).1 last.metrics ∧
    (∀ call error, (step last call).1.reply = .built (.error error) →
      (step last call).2.buffer = last.buffer ∧ ∃ statusErrors,
        (step last call).2.metrics =
          { last.metrics with
            typeErrors := if error.isTypeError then last.metrics.typeErrors + 1
              else last.metrics.typeErrors
            statusErrors := statusErrors }) ∧
    ∀ call error, (step last call).1.reply = .encoded (.error error) → (step last call).2 = last :=
  ⟨balanced_run buffer calls, fun _ _ ↦ step_of_unbuilt, fun _ _ ↦ step_of_unencoded⟩

/-- A packet of 48 zero octets that is built, sent in compressed form and received, and a value of a
foreign type before it is received. -/
theorem run_metrics_blank :
    let factory : Factory := ⟨⟨false, none⟩, StandardSerializer.default.serialize⟩
    let codec : Codec := ⟨.standard, ⟨some .zstd, 0, 48⟩⟩
    let calls : List Call := [.make factory none (.payload (.binary (Packet.blank 48).payload)),
      .encode codec (Packet.blank 48), .make factory none (.foreign "u64"), .decode codec]
    Balanced (run ⟨.empty, .zero⟩ calls).1 (run ⟨.empty, .zero⟩ calls).2.metrics ∧
      (run ⟨.empty, .zero⟩ calls).2.metrics = ⟨1, 1, 0, 48, 1, 1, 0, 1, 1⟩ := by
  intro factory codec calls
  exact ⟨(run_metrics .empty calls).1, by decide +kernel⟩

end Ledger

end TypedPacket
