import TypedPacket.Json.Reader
import TypedPacket.Proofs.Json.Shape
import TypedPacket.Proofs.Reading
import TypedPacket.Proofs.Text.Map

/-!
# What octets in JSON are read as

Whatever the octets are, with blanks, escapes or keys that come again, the objects of the value that
is read of them are maps, and containers are nested in it no deeper than the reader goes
(`yields_value`).
-/

set_option autoImplicit false
set_option relaxedAutoImplicit false

namespace TypedPacket.Json

variable {α β : Type} {read : Reader α} {p : α → Prop}

/-- Every element of a list that is read has what every value of its reader has. -/
theorem yields_elements (hread : Yields read p) (turns : Nat) (first : Bool) {sofar : List α}
    (hsofar : ∀ value ∈ sofar, p value) :
    Yields (elements read turns first sofar) fun items ↦ ∀ value ∈ items, p value := by
  induction turns generalizing first sofar with
  | zero => exact .error _
  | succ turns ih =>
    intro input items rest h
    rw [elements] at h
    split at h
    · cases h
    · obtain ⟨rfl, -⟩ := Prod.mk.inj (Except.ok.inj h)
      exact fun value hvalue ↦ hsofar value (List.mem_reverse.mp hvalue)
    · rename_i behind hnext
      split at h
      · cases h
      · rename_i value others hvalue
        exact ih false (List.forall_mem_cons.mpr ⟨hread _ _ _ hvalue, hsofar⟩) others items rest h

theorem yields_listOf (hread : Yields read p) :
    Yields (listOf read) fun items ↦ ∀ value ∈ items, p value :=
  fun input ↦ yields_elements hread (input.length + 1) true (List.forall_mem_nil _) input

/-- What putting an entry preserves holds of what is read. -/
theorem yields_entries (hread : Yields read p) {put : String → α → β → β} {kept : β → Prop}
    (hput : ∀ key content sofar, p content → kept sofar → kept (put key content sofar))
    (turns : Nat) (first : Bool) {sofar : β} (hsofar : kept sofar) :
    Yields (entries read put turns first sofar) kept := by
  induction turns generalizing first sofar with
  | zero => exact .error _
  | succ turns ih =>
    intro input filled rest h
    rw [entries] at h
    split at h
    · cases h
    · obtain ⟨rfl, -⟩ := Prod.mk.inj (Except.ok.inj h)
      exact hsofar
    · obtain ⟨⟨key, behind⟩, -, h⟩ := bind_eq_ok_iff.mp h
      obtain ⟨behind, -, h⟩ := bind_eq_ok_iff.mp h
      obtain ⟨⟨content, others⟩, hcontent, h⟩ := bind_eq_ok_iff.mp h
      exact ih false (hput key content sofar (hread _ _ _ hcontent) hsofar) others filled rest h

theorem yields_objectOf (hread : Yields read p) (put : String → α → β → β) {kept : β → Prop}
    {empty : β} (hput : ∀ key content sofar, p content → kept sofar → kept (put key content sofar))
    (hempty : kept empty) : Yields (objectOf read put empty) kept :=
  fun input ↦ yields_entries hread hput (input.length + 1) true hempty input

/-- The objects of what is read are maps, and nothing is nested too deep in it to be read again. -/
theorem yields_value (depth : Nat) : Yields (value depth) (Value.Shallow depth) := by
  induction depth with
  | zero => exact .of_ne_ok fun _ _ ↦ nofun
  | succ depth ih =>
    have hleaf : ∀ content : Value, content.Ordered → content.depth = 0 →
        content.Shallow (depth + 1) :=
      fun content hordered hdepth ↦ ⟨hordered, hdepth ▸ Nat.succ_pos depth⟩
    intro input content rest h
    rw [value] at h
    split at h
    · cases h
    rename_i octet behind hstart
    -- The first octet that is no blank tells what is read behind it.
    by_cases hnull : octet = 0x6E
    · rw [if_pos hnull] at h
      exact (Yields.any (word nullTail)).map _ (fun _ _ ↦ hleaf .null trivial rfl) _ _ _ h
    by_cases htrue : octet = 0x74
    · rw [if_neg hnull, if_pos htrue] at h
      exact (Yields.any (word trueTail)).map _ (fun _ _ ↦ hleaf (.flag true) trivial rfl) _ _ _ h
    by_cases hfalse : octet = 0x66
    · rw [if_neg hnull, if_neg htrue, if_pos hfalse] at h
      exact (Yields.any (word falseTail)).map _ (fun _ _ ↦ hleaf (.flag false) trivial rfl) _ _ _ h
    rw [if_neg hnull, if_neg htrue, if_neg hfalse] at h
    by_cases hminus : octet = 0x2D
    · rw [if_pos hminus] at h
      exact (Yields.any (number true)).map _ (fun n _ ↦ hleaf (.number n) trivial rfl) _ _ _ h
    by_cases hdigit : isDigit octet = true
    · rw [if_neg hminus, if_pos hdigit] at h
      exact (Yields.any (number false)).map _ (fun n _ ↦ hleaf (.number n) trivial rfl) _ _ _ h
    by_cases htext : octet = 0x22
    · rw [if_neg hminus, if_neg hdigit, if_pos htext] at h
      exact (Yields.any text).map _ (fun words _ ↦ hleaf (.text words) trivial rfl) _ _ _ h
    rw [if_neg hminus, if_neg hdigit, if_neg htext] at h
    by_cases hlist : octet = 0x5B
    · rw [if_pos hlist] at h
      split at h
      · cases h
      rename_i hdepth
      refine (yields_listOf ih).map _ (fun items hitems ↦ ?_) _ _ _ h
      exact Value.shallow_list (Nat.pos_of_ne_zero hdepth) hitems
    by_cases hobject : octet = 0x7B
    · rw [if_neg hlist, if_pos hobject] at h
      split at h
      · cases h
      rename_i hdepth
      have hfields := yields_objectOf ih Entries.place
        (fun _ _ _ hcontent hsofar ↦ hsofar.place hcontent)
        (Entries.holds_nil (p := fun field ↦ field.2.Shallow depth))
      refine hfields.map _ (fun fields hfields ↦ ?_) _ _ _ h
      exact Value.shallow_object (Nat.pos_of_ne_zero hdepth) hfields.sorted hfields.each
    rw [if_neg hlist, if_neg hobject] at h
    cases h

end TypedPacket.Json
