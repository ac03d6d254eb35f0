import Mathlib.Data.List.Nodup
import TypedPacket.Text.Map

/-!
# Entries and the maps that they leave

A map holds for every key the last value that was written under it (`TextMap.get?_foldl_insert`),
and it is determined by the values under its keys (`TextMap.ext_get?`). So lists of entries that
agree on the last value of every key leave the same map (`TextMap.ofList_eq_iff`).
-/

set_option autoImplicit false
set_option relaxedAutoImplicit false

namespace TypedPacket

namespace Entries

variable {α : Type} {key wanted : String} {value : α} {l l' : List (String × α)}

/-! ### Entries at their places -/

theorem eq_or_mem_of_mem_place {entry : String × α} (h : entry ∈ place key value l) :
    entry = (key, value) ∨ entry ∈ l := by
  induction l with
  | nil => exact .inl (List.mem_singleton.mp h)
  | cons head rest ih =>
    rw [place] at h
    split at h
    · exact List.mem_cons.mp h
    · split at h
      · rcases List.mem_cons.mp h with rfl | hrest
        · exact .inr List.mem_cons_self
        · exact (ih hrest).imp_right (List.mem_cons_of_mem _)
      · rename_i hbefore hafter
        rw [eq_of_not_lt hbefore hafter]
        exact (List.mem_cons.mp h).imp_right (List.mem_cons_of_mem _)

theorem length_place_le (key : String) (value : α) (l : List (String × α)) :
    (place key value l).length ≤ l.length + 1 := by
  induction l with
  | nil => exact Nat.le_refl 1
  | cons head rest ih =>
    rw [place]
    split
    · exact Nat.le_refl _
    · split
      · exact Nat.succ_le_succ ih
      · exact Nat.le_succ _

/-- Entries in order, each of which has a property. -/
structure Holds (p : String × α → Prop) (l : List (String × α)) : Prop where
  sorted : Sorted l
  each : ∀ entry ∈ l, p entry

theorem holds_nil {p : String × α → Prop} : Holds p [] := ⟨.nil, nofun⟩

theorem Holds.place {p : String × α → Prop} (h : Holds p l) (hentry : p (key, value)) :
    Holds p (place key value l) := by
  refine ⟨sorted_place key value h.sorted, fun entry hplaced ↦ ?_⟩
  rcases eq_or_mem_of_mem_place hplaced with rfl | hold
  · exact hentry
  · exact h.each entry hold

/-! ### The value under a key -/

theorem find?_cons (entry : String × α) (l : List (String × α)) :
    find? wanted (entry :: l) = if entry.1 = wanted then some entry.2 else find? wanted l := by
  unfold find?
  by_cases h : entry.1 = wanted
  · subst h
    simp only [List.find?_cons, beq_self_eq_true, if_true, Option.map_some]
  · have hkey : (entry.1 == wanted) = false := beq_eq_false_iff_ne.mpr h
    simp only [List.find?_cons, hkey, h, if_false]

theorem find?_append (l l' : List (String × α)) :
    find? wanted (l ++ l') = (find? wanted l).or (find? wanted l') := by
  induction l with
  | nil => rfl
  | cons entry l ih =>
    rw [List.cons_append, find?_cons, find?_cons, ih]
    split <;> rfl

theorem find?_eq_none_iff : find? wanted l = none ↔ wanted ∉ l.map Prod.fst := by
  induction l with
  | nil => exact iff_of_true rfl List.not_mem_nil
  | cons entry l ih =>
    rw [find?_cons, List.map_cons, List.mem_cons, not_or, ← ih]
    split
    · rename_i heq
      exact iff_of_false nofun fun h ↦ h.1 heq.symm
    · rename_i hne
      exact (and_iff_right (Ne.symm hne)).symm

/-- Where keys differ, the value under a key is the one that stands there. -/
theorem find?_eq_some_iff (hkeys : (l.map Prod.fst).Nodup) :
    find? wanted l = some value ↔ (wanted, value) ∈ l := by
  induction l with
  | nil => exact iff_of_false nofun List.not_mem_nil
  | cons entry l ih =>
    obtain ⟨hnew, hrest⟩ := List.nodup_cons.mp (List.map_cons ▸ hkeys)
    rw [find?_cons, List.mem_cons, Prod.ext_iff]
    split
    · rename_i heq
      have hlater : (wanted, value) ∉ l := fun h ↦
        hnew (heq ▸ List.mem_map_of_mem (f := Prod.fst) h)
      simp only [Option.some.injEq, heq, true_and, hlater, or_false, eq_comm]
    · rename_i hne
      rw [ih hrest]
      exact (or_iff_right fun h ↦ hne h.1.symm).symm

theorem find?_perm (hperm : l.Perm l') (hkeys : (l.map Prod.fst).Nodup) (wanted : String) :
    find? wanted l = find? wanted l' := by
  have hkeys' : (l'.map Prod.fst).Nodup := (hperm.map Prod.fst).nodup_iff.mp hkeys
  ext value
  rw [find?_eq_some_iff hkeys, find?_eq_some_iff hkeys', hperm.mem_iff]

theorem Sorted.nodup_keys (h : Sorted l) : (l.map Prod.fst).Nodup := by
  refine List.pairwise_map.mpr (List.Pairwise.imp ?_ h)
  intro a b hlt heq
  exact String.lt_irrefl _ (heq ▸ hlt)

/-- Entries in order are determined by the values under their keys. -/
theorem eq_of_find?_eq (hl : Sorted l) (hl' : Sorted l')
    (h : ∀ wanted, find? wanted l = find? wanted l') : l = l' := by
  refine List.Perm.eq_of_pairwise ?_ hl hl' ?_
  · intro a b _ _ hab hba
    exact absurd hba (String.lt_asymm hab)
  · refine (List.perm_ext_iff_of_nodup hl.nodup_keys.of_map hl'.nodup_keys.of_map).mpr ?_
    rintro ⟨key, value⟩
    rw [← find?_eq_some_iff hl.nodup_keys, ← find?_eq_some_iff hl'.nodup_keys, h key]

/-! ### The last value under a key -/

/-- The value of the last entry with a key. -/
def last? (key : String) (l : List (String × α)) : Option α := find? key l.reverse

theorem last?_cons (entry : String × α) (l : List (String × α)) :
    last? wanted (entry :: l) =
      (last? wanted l).or (if entry.1 = wanted then some entry.2 else none) := by
  rw [last?, List.reverse_cons, find?_append, find?_cons]
  rfl

theorem last?_append (l l' : List (String × α)) :
    last? wanted (l ++ l') = (last? wanted l').or (last? wanted l) := by
  rw [last?, List.reverse_append, find?_append]
  rfl

theorem last?_perm (hperm : l.Perm l') (hkeys : (l.map Prod.fst).Nodup) (wanted : String) :
    last? wanted l = last? wanted l' := by
  have hreverse : l.reverse.Perm l'.reverse :=
    (List.reverse_perm l).trans (hperm.trans (List.reverse_perm l').symm)
  refine find?_perm hreverse ?_ wanted
  rw [List.map_reverse]
  exact List.nodup_reverse.mpr hkeys

/-- An entry whose key comes again is as good as absent. -/
theorem last?_of_mem_keys {before after : List (String × α)} (hkey : key ∈ after.map Prod.fst)
    (wanted : String) :
    last? wanted (before ++ (key, value) :: after) = last? wanted (before ++ after) := by
  rw [last?_append, last?_append, last?_cons]
  by_cases heq : key = wanted
  · have hlater : last? wanted after ≠ none := by
      rw [last?, Ne, find?_eq_none_iff, List.map_reverse, List.mem_reverse, not_not, ← heq]
      exact hkey
    obtain ⟨found, hfound⟩ := Option.ne_none_iff_exists'.mp hlater
    rw [hfound]
    rfl
  · rw [if_neg heq, Option.or_none]

/-! ### Entries that say the same -/

/-- One list of entries into another that leaves the same: entries whose keys differ may be put in
any order, and an entry may go whose key comes again. -/
inductive Rearranges : List (String × α) → List (String × α) → Prop
  | permute {l l' : List (String × α)} (hkeys : (l.map Prod.fst).Nodup) (hperm : l.Perm l') :
      Rearranges l l'
  | drop (before : List (String × α)) (key : String) (value : α) (after : List (String × α))
      (hkey : key ∈ after.map Prod.fst) :
      Rearranges (before ++ (key, value) :: after) (before ++ after)

theorem Rearranges.last?_eq (h : Rearranges l l') (wanted : String) :
    last? wanted l = last? wanted l' := by
  cases h with
  | permute hkeys hperm => exact last?_perm hperm hkeys wanted
  | drop before key value after hkey => exact last?_of_mem_keys hkey wanted

end Entries

namespace TextMap

variable {l l' : List (String × String)}

theorem ext_get? {a b : TextMap} (h : ∀ key, a.get? key = b.get? key) : a = b := by
  obtain ⟨entries, hsorted⟩ := a
  obtain ⟨others, hothers⟩ := b
  obtain rfl := Entries.eq_of_find?_eq hsorted hothers h
  rfl

/-- After writes, a key has the value that was written last. -/
theorem get?_foldl_insert (l : List (String × String)) (map : TextMap) (key : String) :
    (l.foldl (fun map entry ↦ map.insert entry.1 entry.2) map).get? key =
      (Entries.last? key l).or (map.get? key) := by
  induction l generalizing map with
  | nil => rfl
  | cons entry l ih =>
    rw [List.foldl_cons, ih, get?_insert, Entries.last?_cons, Option.or_assoc]
    split <;> rfl

theorem get?_ofList (l : List (String × String)) (key : String) :
    (ofList l).get? key = Entries.last? key l :=
  (get?_foldl_insert l empty key).trans Option.or_none

/-- Entries leave the same map exactly if they agree on the last value of every key. -/
theorem ofList_eq_iff :
    ofList l = ofList l' ↔ ∀ key, Entries.last? key l = Entries.last? key l' := by
  simp only [← get?_ofList]
  exact ⟨fun h key ↦ congrArg (get? · key) h, ext_get?⟩

end TextMap

end TypedPacket
