import TypedPacket.Proofs.Ledger

/-!
# Statuses in the ledger

A build returns a status for three reasons: the serializer rejected the payload, it gave another
kind than it was asked for, or the name of the series is empty or too long. The first two are
counted as status errors and the third is not, although it reaches the caller as the others do. So
over any run the status errors and the builds that were refused for a name come together to the
statuses that were returned, modulo `2 ^ 64` (`Ledger.run_statusErrors`).
-/

set_option autoImplicit false
set_option relaxedAutoImplicit false

namespace TypedPacket

/-- Of what stands in the way of a packet, the name of the series alone gives a status. -/
theorem Factory.Obstructs.isSome_status? {factory : Factory} {elapsed : Option (Nat × Nat)}
    {options : PacketOptions} {error : PacketError}
    (h : factory.Obstructs (.ofElapsed elapsed) options error) :
    error.status?.isSome = factory.misnames options := by
  cases h with
  | series name hmisnames => exact hmisnames.symm
  | header size hmisnames => exact hmisnames.symm
  | clock _ hmisnames hclock =>
    cases elapsed with
    | none =>
      cases hclock
      exact hmisnames.symm
    | some elapsed => cases hclock

namespace Ledger

/-! ### What is returned -/

/-- The status that a reply gives. -/
def Reply.status? : Reply → Option Status
  | .built (.error error) => error.status?
  | _ => none

/-- A call that returned a status. -/
def Entry.failsOnStatus (entry : Entry) : Bool := entry.reply.status?.isSome

/-- What a call asks a factory to build. -/
structure Order where
  factory : Factory
  options : PacketOptions
  payload : Payload

def Call.order? : Call → Option Order
  | .build factory _ options payload => some ⟨factory, options, payload⟩
  | .make factory _ (.payload payload) => some ⟨factory, .default, payload⟩
  | _ => none

/-- The payload is serialized as it should be, but the name of the series is not allowed. -/
def Order.isMisnamed (order : Order) : Bool :=
  order.factory.serves order.payload && order.factory.misnames order.options

def Call.isMisnamed (call : Call) : Bool := call.order?.any Order.isMisnamed

theorem exists_answer_of_order {call : Call} {order : Order} (h : call.order? = some order)
    (buffer : ByteArray) : ∃ elapsed outcome,
      order.factory.Ends (.ofElapsed elapsed) order.options order.payload outcome ∧
        answer buffer call = ⟨.built outcome.1, buffer, outcome.2⟩ := by
  cases call with
  | build factory elapsed options payload =>
    cases h
    exact ⟨elapsed, _, factory.ends _ _ _, rfl⟩
  | make factory elapsed candidate =>
    cases candidate with
    | payload payload =>
      cases h
      exact ⟨elapsed, _, factory.ends _ _ _, rfl⟩
    | foreign typeName => cases h
  | encode | decode | decodeLast | replace => cases h

/-- Who asks for no packet gets no status. -/
theorem status?_answer_of_no_order {call : Call} (h : call.order? = none) (buffer : ByteArray) :
    (answer buffer call).reply.status? = none := by
  cases call with
  | build => cases h
  | make factory elapsed candidate =>
    cases candidate with
    | payload payload => cases h
    | foreign typeName => rfl
  | encode codec packet =>
    simp only [answer]
    split <;> rfl
  | decode | decodeLast | replace => rfl

/-! ### What is counted -/

/-- Without a status no status error is counted. -/
theorem Tells.statusErrors {buffer : ByteArray} {call : Call} {outcome : Outcome}
    (h : Tells buffer call outcome) (hreply : outcome.reply.status? = none) :
    (Metrics.zero.countAll outcome.notices).statusErrors = 0 := by
  cases h with
  | rejected | kindChanged => cases hreply
  | encoded =>
    rw [Metrics.countAll_encoded]
    rfl
  | built | foreign | unassembled | unencoded | decoded | waiting | undecodable | cutOff |
    replaced => rfl

/-- A call that returns a status counts one, unless only the name of the series is wrong. -/
theorem statusErrors_answer (buffer : ByteArray) (call : Call) :
    (Metrics.zero.countAll (answer buffer call).notices).statusErrors +
        UInt64.ofNat call.isMisnamed.toNat =
      UInt64.ofNat (answer buffer call).reply.status?.isSome.toNat := by
  cases horder : call.order? with
  | none =>
    have hreply := status?_answer_of_no_order horder buffer
    rw [(tells buffer call).statusErrors hreply, hreply, Call.isMisnamed, horder]
    rfl
  | some order =>
    obtain ⟨elapsed, outcome, hends, hanswer⟩ := exists_answer_of_order horder buffer
    rw [hanswer, Call.isMisnamed, horder, Option.any_some, Order.isMisnamed]
    cases hends with
    | rejected status hserializer =>
      have hserves : order.factory.serves order.payload = false := by
        rw [Factory.serves, hserializer]
      rw [hserves]
      rfl
    | kindChanged serialized hserializer hkind =>
      have hserves : order.factory.serves order.payload = false := by
        simpa only [Factory.serves, hserializer, decide_eq_false_iff_not] using hkind
      rw [hserves]
      rfl
    | obstructed error hserves hobstructs =>
      rw [hserves, Bool.true_and, ← hobstructs.isSome_status?]
      exact UInt64.zero_add _
    | built packet hserves hmisnames =>
      rw [hserves, hmisnames]
      rfl

/-- The status errors after a call, with the one that a name of a series should have been. -/
theorem statusErrors_step (state : State) (call : Call) :
    (step state call).2.metrics.statusErrors + UInt64.ofNat call.isMisnamed.toNat =
      state.metrics.statusErrors + UInt64.ofNat (step state call).1.failsOnStatus.toNat := by
  have hanswer := statusErrors_answer state.buffer call
  calc (step state call).2.metrics.statusErrors + UInt64.ofNat call.isMisnamed.toNat
      = state.metrics.statusErrors +
          (Metrics.zero.countAll (answer state.buffer call).notices).statusErrors +
          UInt64.ofNat call.isMisnamed.toNat := by
        rw [step, Metrics.countAll_eq_add]
        rfl
    _ = state.metrics.statusErrors + UInt64.ofNat (step state call).1.failsOnStatus.toNat := by
        rw [UInt64.add_assoc, hanswer]
        rfl

theorem ofNat_countP_cons {α : Type} (p : α → Bool) (a : α) (as : List α) :
    UInt64.ofNat ((a :: as).countP p) =
      UInt64.ofNat (p a).toNat + UInt64.ofNat (as.countP p) := by
  rw [← UInt64.ofNat_add, List.countP_cons, Nat.add_comm]
  cases p a <;> rfl

/-- The status errors after a run, with those that names of series should have been, are the
statuses that the run returned. -/
theorem statusErrors_run (state : State) (calls : List Call) :
    (run state calls).2.metrics.statusErrors + UInt64.ofNat (calls.countP Call.isMisnamed) =
      state.metrics.statusErrors +
        UInt64.ofNat ((run state calls).1.countP Entry.failsOnStatus) := by
  -- Both counts stand beside the counter, so that no step takes one from the other.
  induction calls generalizing state with
  | nil => rfl
  | cons call calls ih =>
    calc (run state (call :: calls)).2.metrics.statusErrors +
          UInt64.ofNat ((call :: calls).countP Call.isMisnamed)
        = (run (step state call).2 calls).2.metrics.statusErrors +
            UInt64.ofNat (calls.countP Call.isMisnamed) +
            UInt64.ofNat call.isMisnamed.toNat := by
          rw [ofNat_countP_cons, UInt64.add_comm (UInt64.ofNat call.isMisnamed.toNat),
            ← UInt64.add_assoc]
          rfl
      _ = (step state call).2.metrics.statusErrors + UInt64.ofNat call.isMisnamed.toNat +
            UInt64.ofNat ((run (step state call).2 calls).1.countP Entry.failsOnStatus) := by
          rw [ih, UInt64.add_assoc, UInt64.add_comm (UInt64.ofNat (List.countP _ _)),
            ← UInt64.add_assoc]
      _ = state.metrics.statusErrors +
            UInt64.ofNat ((run state (call :: calls)).1.countP Entry.failsOnStatus) := by
          rw [statusErrors_step, UInt64.add_assoc, ← ofNat_countP_cons]
          rfl

/-! ### Statuses of a run -/

theorem ofNat_eq_zero_iff {n : Nat} : UInt64.ofNat n = 0 ↔ 2 ^ 64 ∣ n := by
  rw [UInt64.ofNat_eq_iff_mod_eq_toNat, Nat.dvd_iff_mod_eq_zero]
  rfl

variable {call : Call} {order : Order}

/-- What a serializer rejects reaches the caller as it is. -/
theorem reply_of_rejected (state : State) (horder : call.order? = some order) {status : Status}
    (hstatus : order.factory.serializer order.payload = .error status) :
    (step state call).1.reply = .built (.error (.status status)) := by
  obtain ⟨elapsed, outcome, hends, hanswer⟩ := exists_answer_of_order horder state.buffer
  simp only [step, hanswer]
  cases hends with
  | rejected other hserializer =>
    cases hserializer.symm.trans hstatus
    rfl
  | kindChanged serialized hserializer => cases hserializer.symm.trans hstatus
  | obstructed error hserves => simp [Factory.serves, hstatus] at hserves
  | built packet hserves => simp [Factory.serves, hstatus] at hserves

/-- A name that is not allowed is refused with a status, and nothing else happens. -/
theorem step_of_misnamed (state : State) (horder : call.order? = some order)
    (hmisnamed : order.isMisnamed = true) :
    (step state call).2 = state ∧
      ∃ name, order.options.series.or order.factory.settings.defaultSeries = some name ∧
        (step state call).1.reply = .built (.error (.status (seriesStatus name))) := by
  obtain ⟨elapsed, outcome, hends, hanswer⟩ := exists_answer_of_order horder state.buffer
  obtain ⟨hserves, hmisnames⟩ := Bool.and_eq_true_iff.mp hmisnamed
  simp only [step, hanswer]
  cases hends with
  | rejected status hserializer => simp [Factory.serves, hserializer] at hserves
  | kindChanged serialized hserializer hkind =>
    simp [Factory.serves, hserializer, hkind] at hserves
  | built packet _ hnamed => cases hmisnames.symm.trans hnamed
  | obstructed error _ hobstructs =>
    cases hobstructs with
    | series name _ hname => exact ⟨rfl, name, hname, rfl⟩
    | clock _ hnamed => cases hmisnames.symm.trans hnamed
    | header _ hnamed => cases hmisnames.symm.trans hnamed

/-- For any calls in any order, each with settings of its own, and from any buffer: if nothing was
counted before, the status errors are the statuses that were returned, except that a name of a
series that is not allowed counts nothing. So they agree, modulo `2 ^ 64`, exactly if the calls that
fail on such a name do not matter modulo `2 ^ 64`. From there what a serializer rejects reaches the
caller as it is, and a call that fails on a name leaves everything as it is. -/
theorem run_statusErrors (buffer : ByteArray) (calls : List Call) :
    let history := (run ⟨buffer, .zero⟩ calls).1
    let last := (run ⟨buffer, .zero⟩ calls).2
    last.metrics.statusErrors + UInt64.ofNat (calls.countP Call.isMisnamed) =
      UInt64.ofNat (history.countP Entry.failsOnStatus) ∧
    (last.metrics.statusErrors = UInt64.ofNat (history.countP Entry.failsOnStatus) ↔
      2 ^ 64 ∣ calls.countP Call.isMisnamed) ∧
    ∀ call order, call.order? = some order →
      (∀ status, order.factory.serializer order.payload = .error status →
        (step last call).1.reply = .built (.error (.status status))) ∧
      (order.isMisnamed = true → (step last call).2 = last ∧
        ∃ name, order.options.series.or order.factory.settings.defaultSeries = some name ∧
          (step last call).1.reply = .built (.error (.status (seriesStatus name)))) := by
  intro history last
  have hrun : last.metrics.statusErrors + UInt64.ofNat (calls.countP Call.isMisnamed) =
      UInt64.ofNat (history.countP Entry.failsOnStatus) :=
    (statusErrors_run ⟨buffer, .zero⟩ calls).trans (UInt64.zero_add _)
  refine ⟨hrun, ?_, fun call order horder ↦
    ⟨fun status ↦ reply_of_rejected last horder, step_of_misnamed last horder⟩⟩
  rw [← hrun, ← ofNat_eq_zero_iff]
  exact UInt64.left_eq_add

/-- A serializer that rejects texts and takes everything else for octets: a text and an image count
their statuses, and the octets of a series without a name do not. -/
theorem run_statusErrors_choosy :
    let choosy : Serializer := fun
      | .text _ => .error ⟨.failedPrecondition, "quota exceeded"⟩
      | _ => .ok ⟨.binary, none, .empty⟩
    let factory : Factory := ⟨⟨false, none⟩, choosy⟩
    let calls : List Call := [.make factory none (.payload (.text "quota")),
      .make factory none (.payload (.rawImage ⟨0, 0, .gray8, .empty⟩)),
      .make factory none (.payload (.binary .empty)),
      .build factory none (PacketOptions.default.withSeries "") (.binary .empty)]
    let last := (run ⟨.empty, .zero⟩ calls).2
    last.metrics = ⟨1, 0, 2, 0, 0, 0, 0, 0, 0⟩ ∧
    last.metrics.statusErrors + 1 =
      UInt64.ofNat ((run ⟨.empty, .zero⟩ calls).1.countP Entry.failsOnStatus) ∧
    (step last (.build factory none .default (.text "quota"))).1.reply =
      .built (.error (.status ⟨.failedPrecondition, "quota exceeded"⟩)) ∧
    (step last (.build factory none (PacketOptions.default.withSeries "") (.binary .empty))).2 =
      last := by
  intro choosy factory calls last
  obtain ⟨hrun, -, hcall⟩ := run_statusErrors .empty calls
  have hmisnamed : calls.countP Call.isMisnamed = 1 := by decide
  rw [hmisnamed] at hrun
  exact ⟨by decide, hrun, (hcall _ ⟨factory, .default, .text "quota"⟩ rfl).1 _ rfl,
    ((hcall _ ⟨factory, PacketOptions.default.withSeries "", .binary .empty⟩ rfl).2
      (by decide)).1⟩

/-- A build for a series without a name returns a status, and no status error is counted. -/
theorem exists_status_uncounted :
    let factory : Factory := ⟨⟨false, none⟩, StandardSerializer.default.serialize⟩
    let calls : List Call :=
      [.build factory none (PacketOptions.default.withSeries "") (.text "x")]
    (run ⟨.empty, .zero⟩ calls).1.countP Entry.failsOnStatus = 1 ∧
      (run ⟨.empty, .zero⟩ calls).2.metrics.statusErrors = 0 := by
  decide

end Ledger

end TypedPacket
