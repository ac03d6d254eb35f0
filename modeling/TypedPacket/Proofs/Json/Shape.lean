import Mathlib.Order.MinMax
import TypedPacket.Json.Value

/-!
# The shape of structured values

What is said about a structured value is said about the value and about everything in it
(`Value.Everywhere`). Three such properties matter to what is stored: the fields of an object are in
increasing order of their keys (`Value.Ordered`), which is how a map stands; a number is an integer
(`Value.Exact`); and texts, lists and objects are shorter than a bound (`Value.Within`). How deep
containers are nested is a number (`Value.depth`).
-/

set_option autoImplicit false
set_option relaxedAutoImplicit false

namespace TypedPacket.Json.Value

/-- A property of all values is proved for lists and objects from the values in them. -/
@[elab_as_elim]
theorem inside_induction {motive : Value → Prop} (null : motive .null)
    (flag : ∀ content, motive (.flag content)) (number : ∀ content, motive (.number content))
    (text : ∀ content, motive (.text content))
    (list : ∀ items, (∀ item ∈ items, motive item) → motive (.list items))
    (object : ∀ fields, (∀ field ∈ fields, motive field.2) → motive (.object fields)) :
    ∀ value, motive value
  | .null => null
  | .flag content => flag content
  | .number content => number content
  | .text content => text content
  | .list items => list items fun item _ ↦
    inside_induction null flag number text list object item
  | .object fields => object fields fun field _ ↦
    inside_induction null flag number text list object field.2
termination_by value => sizeOf value
decreasing_by
  · have hsize := List.sizeOf_lt_of_mem ‹item ∈ items›
    rw [Value.list.sizeOf_spec]
    omega
  · have hsize := List.sizeOf_lt_of_mem ‹field ∈ fields›
    obtain ⟨key, value⟩ := field
    rw [Prod.mk.sizeOf_spec] at hsize
    change sizeOf value < _
    rw [Value.object.sizeOf_spec]
    omega

/-! ### Properties of a value and of everything in it -/

mutual

/-- A property of the value and of every value in it. -/
def Everywhere (p : Value → Prop) : Value → Prop
  | .list items => p (.list items) ∧ EveryItem p items
  | .object fields => p (.object fields) ∧ EveryField p fields
  | value => p value

def EveryItem (p : Value → Prop) : List Value → Prop
  | [] => True
  | item :: rest => Everywhere p item ∧ EveryItem p rest

def EveryField (p : Value → Prop) : List (String × Value) → Prop
  | [] => True
  | (_, value) :: rest => Everywhere p value ∧ EveryField p rest

end

mutual

instance decidableEverywhere (p : Value → Prop) [DecidablePred p] :
    (value : Value) → Decidable (value.Everywhere p)
  | .list items =>
    have := decidableEveryItem p items
    inferInstanceAs (Decidable (p (.list items) ∧ EveryItem p items))
  | .object fields =>
    have := decidableEveryField p fields
    inferInstanceAs (Decidable (p (.object fields) ∧ EveryField p fields))
  | .null => inferInstanceAs (Decidable (p .null))
  | .flag content => inferInstanceAs (Decidable (p (.flag content)))
  | .number content => inferInstanceAs (Decidable (p (.number content)))
  | .text content => inferInstanceAs (Decidable (p (.text content)))

instance decidableEveryItem (p : Value → Prop) [DecidablePred p] :
    (items : List Value) → Decidable (EveryItem p items)
  | [] => inferInstanceAs (Decidable True)
  | item :: rest =>
    have := decidableEverywhere p item
    have := decidableEveryItem p rest
    inferInstanceAs (Decidable (Everywhere p item ∧ EveryItem p rest))

instance decidableEveryField (p : Value → Prop) [DecidablePred p] :
    (fields : List (String × Value)) → Decidable (EveryField p fields)
  | [] => inferInstanceAs (Decidable True)
  | (_, value) :: rest =>
    have := decidableEverywhere p value
    have := decidableEveryField p rest
    inferInstanceAs (Decidable (Everywhere p value ∧ EveryField p rest))

end

variable {p : Value → Prop} {items : List Value} {fields : List (String × Value)}

theorem everyItem_iff : EveryItem p items ↔ ∀ item ∈ items, item.Everywhere p := by
  induction items with
  | nil => simp only [EveryItem, List.not_mem_nil, false_implies, implies_true]
  | cons item rest ih => rw [EveryItem, ih, List.forall_mem_cons]

theorem everyField_iff : EveryField p fields ↔ ∀ field ∈ fields, field.2.Everywhere p := by
  induction fields with
  | nil => simp only [EveryField, List.not_mem_nil, false_implies, implies_true]
  | cons field rest ih => rw [EveryField, ih, List.forall_mem_cons]

theorem everywhere_list :
    (list items).Everywhere p ↔ p (.list items) ∧ ∀ item ∈ items, item.Everywhere p := by
  rw [Everywhere, everyItem_iff]

theorem everywhere_object :
    (object fields).Everywhere p ↔
      p (.object fields) ∧ ∀ field ∈ fields, field.2.Everywhere p := by
  rw [Everywhere, everyField_iff]

/-- Objects are maps: their fields stand in increasing order of the keys, each key once. -/
def Ordered : Value → Prop :=
  Everywhere fun
    | .object fields => Entries.Sorted fields
    | _ => True

instance : DecidablePred Ordered := fun value ↦
  have : DecidablePred fun | Value.object fields => Entries.Sorted fields | _ => True := fun
    | .object fields => inferInstanceAs (Decidable (Entries.Sorted fields))
    | .null | .flag _ | .number _ | .text _ | .list _ => inferInstanceAs (Decidable True)
  inferInstanceAs (Decidable (value.Everywhere _))

/-- Every number is an integer. -/
def Exact : Value → Prop :=
  Everywhere fun
    | .number (.double _ _) => False
    | _ => True

instance : DecidablePred Exact := fun value ↦
  have : DecidablePred fun | Value.number (.double _ _) => False | _ => True := fun
    | .number (.double _ _) => inferInstanceAs (Decidable False)
    | .number (.integer _ _) | .null | .flag _ | .text _ | .list _ | .object _ =>
      inferInstanceAs (Decidable True)
  inferInstanceAs (Decidable (value.Everywhere _))

/-- Texts, with those of the keys, have fewer octets than the bound, lists fewer items and objects
fewer fields. -/
def Within (bound : Nat) : Value → Prop :=
  Everywhere fun
    | .text content => content.toUTF8.size < bound
    | .list items => items.length < bound
    | .object fields =>
      fields.length < bound ∧ ∀ field ∈ fields, field.1.toUTF8.size < bound
    | _ => True

instance (bound : Nat) : DecidablePred (Within bound) := fun value ↦
  have : DecidablePred fun
      | Value.text content => content.toUTF8.size < bound
      | .list items => items.length < bound
      | .object fields => fields.length < bound ∧ ∀ field ∈ fields, field.1.toUTF8.size < bound
      | _ => True := fun
    | .text content => inferInstanceAs (Decidable (content.toUTF8.size < bound))
    | .list items => inferInstanceAs (Decidable (items.length < bound))
    | .object fields => inferInstanceAs (Decidable (fields.length < bound ∧
        ∀ field ∈ fields, field.1.toUTF8.size < bound))
    | .null | .flag _ | .number _ => inferInstanceAs (Decidable True)
  inferInstanceAs (Decidable (value.Everywhere _))

/-! ### Depth -/

mutual

/-- How many containers are nested at most. -/
def depth : Value → Nat
  | .list items => itemsDepth items + 1
  | .object fields => fieldsDepth fields + 1
  | _ => 0

def itemsDepth : List Value → Nat
  | [] => 0
  | item :: rest => max item.depth (itemsDepth rest)

def fieldsDepth : List (String × Value) → Nat
  | [] => 0
  | (_, value) :: rest => max value.depth (fieldsDepth rest)

end

theorem le_itemsDepth {n : Nat} (hn : 0 < n) :
    n ≤ itemsDepth items ↔ ∃ item ∈ items, n ≤ item.depth := by
  induction items with
  | nil => simp only [itemsDepth, Nat.not_le_of_lt hn, List.not_mem_nil, false_and, exists_false]
  | cons item rest ih =>
    rw [itemsDepth, le_max_iff, ih]
    simp only [List.mem_cons, exists_eq_or_imp]

theorem le_fieldsDepth {n : Nat} (hn : 0 < n) :
    n ≤ fieldsDepth fields ↔ ∃ field ∈ fields, n ≤ field.2.depth := by
  induction fields with
  | nil => simp only [fieldsDepth, Nat.not_le_of_lt hn, List.not_mem_nil, false_and, exists_false]
  | cons field rest ih =>
    rw [fieldsDepth, le_max_iff, ih]
    simp only [List.mem_cons, exists_eq_or_imp]

/-- Objects are maps, and containers are nested below so many. -/
structure Shallow (n : Nat) (value : Value) : Prop where
  ordered : value.Ordered
  depth_lt : value.depth < n

theorem shallow_list {n : Nat} (hn : 0 < n) (h : ∀ item ∈ items, item.Shallow n) :
    (list items).Shallow (n + 1) := by
  refine ⟨everywhere_list.mpr ⟨trivial, fun item hitem ↦ (h item hitem).ordered⟩, ?_⟩
  refine Nat.succ_lt_succ (Nat.lt_of_not_le fun hdeep ↦ ?_)
  obtain ⟨item, hitem, hdepth⟩ := (le_itemsDepth hn).mp hdeep
  exact Nat.not_lt_of_le hdepth (h item hitem).depth_lt

theorem shallow_object {n : Nat} (hn : 0 < n) (hsorted : Entries.Sorted fields)
    (h : ∀ field ∈ fields, field.2.Shallow n) : (object fields).Shallow (n + 1) := by
  refine ⟨everywhere_object.mpr ⟨hsorted, fun field hfield ↦ (h field hfield).ordered⟩, ?_⟩
  refine Nat.succ_lt_succ (Nat.lt_of_not_le fun hdeep ↦ ?_)
  obtain ⟨field, hfield, hdepth⟩ := (le_fieldsDepth hn).mp hdeep
  exact Nat.not_lt_of_le hdepth (h field hfield).depth_lt

end TypedPacket.Json.Value
