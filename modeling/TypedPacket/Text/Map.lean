/-!
# Text maps

A map from text to text, kept as its entries in increasing order of the keys (which is also the order
of their UTF-8 octets). Writing a key again replaces its value, so two histories of writes that agree
on the last value of every key give equal maps; what is looked up after a write is `get?_insert`.
-/

set_option autoImplicit false
set_option relaxedAutoImplicit false

namespace TypedPacket

/-! ### Entries in increasing order of their keys -/

namespace Entries

variable {α : Type}

/-- Keys increase along the entries. -/
def Sorted (l : List (String × α)) : Prop := l.Pairwise fun a b => a.1 < b.1

instance (l : List (String × α)) : Decidable (Sorted l) :=
  inferInstanceAs (Decidable (l.Pairwise fun a b => a.1 < b.1))

/-- Puts an entry at its place in an ordered list, over an entry of the same key. -/
def place (key : String) (value : α) : List (String × α) → List (String × α)
  | [] => [(key, value)]
  | (k, v) :: rest =>
    if key < k then (key, value) :: (k, v) :: rest
    else if k < key then (k, v) :: place key value rest
    else (k, value) :: rest

/-- The value of the first entry with a key. -/
def find? (key : String) (l : List (String × α)) : Option α :=
  (l.find? fun entry => entry.1 == key).map (·.2)

theorem eq_of_not_lt {a b : String} (hab : ¬ a < b) (hba : ¬ b < a) : a = b :=
  String.le_antisymm (String.not_lt.1 hba) (String.not_lt.1 hab)

theorem mem_place {key : String} {value : α} {l : List (String × α)} {x : String × α}
    (h : x ∈ place key value l) : x.1 = key ∨ x ∈ l := by
  induction l with
  | nil =>
    simp only [place, List.mem_singleton] at h
    simp [h]
  | cons head rest ih =>
    obtain ⟨k, v⟩ := head
    simp only [place] at h
    split at h
    · rcases List.mem_cons.1 h with h | h
      · simp [h]
      · exact .inr h
    · split at h
      · rcases List.mem_cons.1 h with h | h
        · simp [h]
        · exact (ih h).imp_right (List.mem_cons_of_mem _)
      · rename_i hle hge
        rcases List.mem_cons.1 h with h | h
        · exact .inl (by rw [h]; exact (eq_of_not_lt hle hge).symm)
        · exact .inr (List.mem_cons_of_mem _ h)

theorem sorted_place (key : String) (value : α) {l : List (String × α)} (h : Sorted l) :
    Sorted (place key value l) := by
  induction l with
  | nil => simp [place, Sorted]
  | cons head rest ih =>
    obtain ⟨k, v⟩ := head
    obtain ⟨hhead, hrest⟩ := List.pairwise_cons.1 h
    simp only [place]
    split
    · rename_i hlt
      refine List.pairwise_cons.2 ⟨fun x hx => ?_, h⟩
      rcases List.mem_cons.1 hx with rfl | hx
      · exact hlt
      · exact String.lt_trans hlt (hhead x hx)
    · split
      · rename_i hgt
        refine List.pairwise_cons.2 ⟨fun x hx => ?_, ih hrest⟩
        rcases mem_place hx with hx | hx
        · rw [hx]
          exact hgt
        · exact hhead x hx
      · exact List.pairwise_cons.2 ⟨hhead, hrest⟩

theorem find?_place (key : String) (value : α) (wanted : String) (l : List (String × α)) :
    find? wanted (place key value l) = if key = wanted then some value else find? wanted l := by
  unfold find?
  induction l with
  | nil => by_cases h : key = wanted <;> simp [place, h]
  | cons head rest ih =>
    obtain ⟨k, v⟩ := head
    simp only [place]
    split
    · by_cases h : key = wanted <;> simp [List.find?_cons, h]
    · split
      · rename_i hgt
        by_cases hk : k = wanted
        · subst hk
          have : key ≠ k := fun h => String.lt_irrefl k (h ▸ hgt)
          simp [this]
        · have hb : (k == wanted) = false := by simpa using hk
          simp only [List.find?_cons, hb]
          exact ih
      · rename_i hle hge
        have := eq_of_not_lt hle hge
        subst this
        by_cases h : key = wanted <;> simp [h]

/-- An entry whose key is beyond all others goes to the end. -/
theorem place_of_forall_lt {key : String} (value : α) {l : List (String × α)}
    (h : ∀ x ∈ l, x.1 < key) : place key value l = l ++ [(key, value)] := by
  induction l with
  | nil => rfl
  | cons head rest ih =>
    have hhead : head.1 < key := h head List.mem_cons_self
    have hafter : ¬ key < head.1 := fun hbefore =>
      String.lt_irrefl key (String.lt_trans hbefore hhead)
    rw [place, if_neg hafter, if_pos hhead, ih fun x hx => h x (List.mem_cons_of_mem _ hx),
      List.cons_append]

end Entries

/-! ### Text maps -/

/-- A map from text to text, ordered by key. -/
structure TextMap where
  entries : List (String × String)
  sorted : Entries.Sorted entries
  deriving DecidableEq, Repr

namespace TextMap

def empty : TextMap := ⟨[], .nil⟩

instance : Inhabited TextMap := ⟨empty⟩

/-- Writes a value under a key. -/
def insert (map : TextMap) (key value : String) : TextMap :=
  ⟨Entries.place key value map.entries, Entries.sorted_place key value map.sorted⟩

/-- The map left by writing the entries in order. -/
def ofList (entries : List (String × String)) : TextMap :=
  entries.foldl (fun map entry => map.insert entry.1 entry.2) empty

/-- The value under a key. -/
def get? (map : TextMap) (key : String) : Option String := Entries.find? key map.entries

theorem get?_insert (map : TextMap) (key value wanted : String) :
    (map.insert key value).get? wanted = if key = wanted then some value else map.get? wanted :=
  Entries.find?_place key value wanted map.entries

/-- Writing the entries of a map in order gives the map. -/
theorem ofList_entries (map : TextMap) : ofList map.entries = map := by
  suffices hfold : ∀ (rest : List (String × String)) (written : TextMap),
      written.entries ++ rest = map.entries →
        rest.foldl (fun map entry => map.insert entry.1 entry.2) written = map from
    hfold map.entries empty rfl
  intro rest
  induction rest with
  | nil =>
    intro written h
    rw [List.append_nil] at h
    cases written
    cases map
    cases h
    rfl
  | cons entry rest ih =>
    intro written h
    have hsorted : Entries.Sorted (written.entries ++ entry :: rest) := h ▸ map.sorted
    have hlast : ∀ x ∈ written.entries, x.1 < entry.1 := fun x hx =>
      (List.pairwise_append.1 hsorted).2.2 x hx entry List.mem_cons_self
    apply ih
    change Entries.place entry.1 entry.2 written.entries ++ rest = map.entries
    rw [Entries.place_of_forall_lt entry.2 hlast, List.append_assoc]
    exact h

end TextMap

end TypedPacket
