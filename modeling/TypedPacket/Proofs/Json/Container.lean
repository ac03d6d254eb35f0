import Mathlib.Tactic.IntervalCases
import TypedPacket.Json.Reader
import TypedPacket.Proofs.Json.Number
import TypedPacket.Proofs.Json.Text

/-!
# Lists and objects in JSON

What stands between brackets is separated by commas (`joined`). Where each part is read, or is
refused for its depth, whatever ends it (`Fits`), so is the list of the parts (`listOf_joined`) and
the object of the parts behind their keys (`objectOf_joined`).
-/

set_option autoImplicit false
set_option relaxedAutoImplicit false

namespace TypedPacket.Json

/-! ### Parts that are read -/

/-- What is read is the value, unless the place is too deep for the reader. -/
def Outcome {α : Type} (result : Except Stop α) (deep : Prop) (value : α) : Prop :=
  (¬ deep → result = .ok value) ∧ (deep → ∃ left, result = .error ⟨.tooDeep, left⟩)

theorem Outcome.of_eq {α : Type} {result : Except Stop α} {value : α} (h : result = .ok value) :
    Outcome result False value := ⟨fun _ ↦ h, False.elim⟩

theorem Outcome.bind {α β : Type} {first : Except Stop α} {next : α → Except Stop β}
    {deep deeper : Prop} {a : α} {b : β} (hfirst : Outcome first deep a)
    (hnext : Outcome (next a) deeper b) : Outcome (first >>= next) (deep ∨ deeper) b := by
  by_cases hdeep : deep
  · obtain ⟨left, hstop⟩ := hfirst.2 hdeep
    exact ⟨fun h ↦ absurd (.inl hdeep) h, fun _ ↦ ⟨left, by rw [hstop]; rfl⟩⟩
  · have hbind : (first >>= next) = next a := by rw [hfirst.1 hdeep]; rfl
    rw [hbind]
    exact ⟨fun h ↦ hnext.1 fun hdeeper ↦ h (.inr hdeeper),
      fun h ↦ hnext.2 (h.resolve_left hdeep)⟩

theorem Outcome.map {α β : Type} {first : Except Stop α} {next : α → Except Stop β} {deep : Prop}
    {a : α} {b : β} (hfirst : Outcome first deep a) (hnext : next a = .ok b) :
    Outcome (first >>= next) deep b := by
  have hbind := hfirst.bind (Outcome.of_eq hnext)
  rwa [or_false] at hbind

theorem Outcome.congr {α : Type} {result : Except Stop α} {deep deep' : Prop} {value : α}
    (h : Outcome result deep value) (hdeep : deep ↔ deep') : Outcome result deep' value := by
  rwa [propext hdeep] at h

/-- What stands for a value starts neither with a blank nor with a bracket that closes a list. -/
def Starts (part : List UInt8) : Prop :=
  ∃ octet rest, part = octet :: rest ∧ isBlank octet = false ∧ octet ≠ 0x5D

theorem starts_digit {octet : UInt8} (h : isDigit octet = true) (rest : List UInt8) :
    Starts (octet :: rest) := by
  obtain ⟨n, hlow, hhigh, rfl⟩ := exists_of_isDigit h
  refine ⟨_, rest, rfl, ?_⟩
  interval_cases n <;> decide

/-- A part that is read as its content, unless it is too deep. -/
structure Fits {α : Type} (part : List UInt8) (read : Reader α) (deep : Prop) (content : α) :
    Prop where
  starts : Starts part
  outcome : ∀ rest, Ends rest → Outcome (read (part ++ rest)) deep (content, rest)

/-! ### Separated parts -/

variable {ι α β : Type} {part : ι → List UInt8} {l : List ι}

/-- Parts with commas between them. -/
def joined (part : ι → List UInt8) : List ι → List UInt8
  | [] => []
  | i :: l => part i ++ l.flatMap fun i ↦ 0x2C :: part i

theorem joined_cons_cons (i j : ι) (l : List ι) :
    joined part (i :: j :: l) = part i ++ 0x2C :: joined part (j :: l) := rfl

/-- Writing items with commas between them. -/
theorem appends_joined (write : ι → ByteArray → ByteArray) (all : List ι → ByteArray → ByteArray)
    (hnil : ∀ out, all [] out = out) (hone : ∀ i out, all [i] out = write i out)
    (hmore : ∀ i j l out, all (i :: j :: l) out = all (j :: l) ((write i out).push 0x2C))
    (h : ∀ i ∈ l, Appends (write i) (part i)) : Appends (all l) (joined part l) := by
  induction l with
  | nil =>
    intro out
    rw [hnil, joined, List.append_nil]
  | cons i l ih =>
    obtain ⟨hi, hl⟩ := List.forall_mem_cons.mp h
    cases l with
    | nil =>
      intro out
      rw [hone, hi, joined, List.flatMap_nil, List.append_nil]
    | cons j l =>
      intro out
      rw [hmore, ih hl, octets_push, hi, joined_cons_cons]
      simp only [List.append_assoc, List.singleton_append]

theorem length_le_flatMap (part : ι → List UInt8) (l : List ι) :
    l.length ≤ (l.flatMap fun i ↦ 0x2C :: part i).length := by
  induction l with
  | nil => exact Nat.le_refl 0
  | cons i l ih =>
    simp only [List.flatMap_cons, List.length_append, List.length_cons]
    omega

/-- What follows a part between brackets ends it. -/
theorem ends_flatMap (part : ι → List UInt8) (l : List ι) {closing : UInt8}
    (hclosing : closing = 0x5D ∨ closing = 0x7D) (rest : List UInt8) :
    Ends ((l.flatMap fun i ↦ 0x2C :: part i) ++ closing :: rest) := by
  cases l with
  | nil => rintro octet ⟨⟩; exact .inr hclosing
  | cons i l => rintro octet ⟨⟩; exact .inl rfl

/-! ### Lists -/

theorem skipBlank_cons {octet : UInt8} (hblank : isBlank octet = false) (rest : List UInt8) :
    skipBlank (octet :: rest) = octet :: rest :=
  List.dropWhile_cons_of_neg (Bool.eq_false_iff.mp hblank)

theorem nextElement_first {part : List UInt8} (hstarts : Starts part) (rest : List UInt8) :
    nextElement true (part ++ rest) = .ok (true, part ++ rest) := by
  obtain ⟨octet, tail, rfl, hblank, hclosing⟩ := hstarts
  simp only [nextElement, List.cons_append, skipBlank_cons hblank, if_neg hclosing, if_true]

theorem nextElement_comma {part : List UInt8} (hstarts : Starts part) (rest : List UInt8) :
    nextElement false (0x2C :: (part ++ rest)) = .ok (true, part ++ rest) := by
  obtain ⟨octet, tail, rfl, hblank, hclosing⟩ := hstarts
  have hcomma : isBlank 0x2C = false := rfl
  simp only [nextElement, List.cons_append, skipBlank_cons hcomma, skipBlank_cons hblank,
    if_neg hclosing]
  rfl

variable {read : Reader α} {deep : ι → Prop} {content : ι → α}

theorem exists_mem_nil_iff : (∃ i ∈ ([] : List ι), deep i) ↔ False := by
  simp only [List.not_mem_nil, false_and, exists_false]

theorem exists_mem_cons_iff {i : ι} : (∃ j ∈ i :: l, deep j) ↔ deep i ∨ ∃ j ∈ l, deep j := by
  simp only [List.mem_cons, exists_eq_or_imp]

/-- A turn at a part, which stands at the front or behind a comma. -/
theorem elements_succ {read : Reader α} {first : Bool} {input after : List UInt8}
    (hnext : nextElement first input = .ok (true, after)) (turns : Nat) (sofar : List α) :
    elements read (turns + 1) first sofar input = (do
      let (value, rest) ← read after
      elements read turns false (value :: sofar) rest) := by
  simp only [elements, hnext]
  cases read after with
  | error s => rfl
  | ok outcome => rfl

/-- The parts behind the first, with a turn for each and one for the bracket. -/
theorem elements_tail (h : ∀ i ∈ l, Fits (part i) read (deep i) (content i)) {turns : Nat}
    (hturns : l.length < turns) (sofar : List α) (rest : List UInt8) :
    Outcome (elements read turns false sofar ((l.flatMap fun i ↦ 0x2C :: part i) ++ 0x5D :: rest))
      (∃ i ∈ l, deep i) (sofar.reverse ++ l.map content, rest) := by
  induction l generalizing turns sofar with
  | nil =>
    obtain ⟨turns, rfl⟩ : ∃ n, turns = n + 1 := ⟨turns - 1, by omega⟩
    rw [List.map_nil, List.append_nil]
    exact (Outcome.of_eq rfl).congr exists_mem_nil_iff.symm
  | cons i l ih =>
    obtain ⟨turns, rfl⟩ : ∃ n, turns = n + 1 := ⟨turns - 1, by omega⟩
    obtain ⟨hi, hl⟩ := List.forall_mem_cons.mp h
    have hothers := ih hl (Nat.lt_of_succ_lt_succ hturns) (content i :: sofar)
    rw [List.reverse_cons, List.append_assoc, List.singleton_append] at hothers
    rw [List.flatMap_cons, List.cons_append, List.cons_append, List.append_assoc,
      elements_succ (nextElement_comma hi.starts _)]
    exact ((hi.outcome _ (ends_flatMap part l (.inl rfl) rest)).bind hothers).congr
      exists_mem_cons_iff.symm

theorem listOf_joined (h : ∀ i ∈ l, Fits (part i) read (deep i) (content i))
    (rest : List UInt8) :
    Outcome (listOf read (joined part l ++ 0x5D :: rest)) (∃ i ∈ l, deep i)
      (l.map content, rest) := by
  cases l with
  | nil => exact (Outcome.of_eq rfl).congr exists_mem_nil_iff.symm
  | cons i l =>
    obtain ⟨hi, hl⟩ := List.forall_mem_cons.mp h
    have hlength := length_le_flatMap part l
    have hturns : l.length < (joined part (i :: l) ++ 0x5D :: rest).length := by
      simp only [joined, List.length_append, List.length_cons]
      omega
    have hothers := elements_tail hl hturns [content i] rest
    rw [joined, List.append_assoc] at hturns hothers ⊢
    rw [listOf, elements_succ (nextElement_first hi.starts _)]
    exact ((hi.outcome _ (ends_flatMap part l (.inl rfl) rest)).bind hothers).congr
      exists_mem_cons_iff.symm

/-! ### Objects -/

/-- A part behind its key and a colon. -/
def keyed (key : ι → String) (part : ι → List UInt8) (i : ι) : List UInt8 :=
  0x22 :: (quoted (key i) ++ 0x3A :: part i)

/-- Writing a key, a colon and what belongs to them. -/
theorem appends_keyed (name : String) {emit : ByteArray → ByteArray} {written : List UInt8}
    (h : Appends emit written) :
    Appends (fun out ↦ emit ((emitText name out).push 0x3A))
      (0x22 :: (quoted name ++ 0x3A :: written)) := by
  have hkey := ((appends_emitText name).andThen (Appends.push 0x3A)).andThen h
  rwa [List.cons_append, List.cons_append, List.append_assoc] at hkey

variable {key : ι → String} {put : String → α → β → β}

theorem nextKey_first (i : ι) (rest : List UInt8) :
    nextKey true (keyed key part i ++ rest) =
      .ok (true, quoted (key i) ++ 0x3A :: (part i ++ rest)) := by
  simp only [keyed, List.cons_append, List.append_assoc]
  rfl

theorem nextKey_comma (i : ι) (rest : List UInt8) :
    nextKey false (0x2C :: (keyed key part i ++ rest)) =
      .ok (true, quoted (key i) ++ 0x3A :: (part i ++ rest)) := by
  simp only [keyed, List.cons_append, List.append_assoc]
  rfl

/-- A turn at a key and the value behind it. -/
theorem entries_succ {read : Reader α} {first : Bool} {input : List UInt8} {name : String}
    {after : List UInt8} (hnext : nextKey first input = .ok (true, quoted name ++ 0x3A :: after))
    (turns : Nat) (sofar : β) :
    entries read put (turns + 1) first sofar input = (do
      let (value, rest) ← read after
      entries read put turns false (put name value sofar) rest) := by
  have hcolon : colon (0x3A :: after) = .ok after := rfl
  simp only [entries, hnext, text_quoted, hcolon, bind, Except.bind]

theorem entries_tail (key : ι → String) (put : String → α → β → β)
    (h : ∀ i ∈ l, Fits (part i) read (deep i) (content i)) {turns : Nat}
    (hturns : l.length < turns) (sofar : β) (rest : List UInt8) :
    Outcome (entries read put turns false sofar
        ((l.flatMap fun i ↦ 0x2C :: keyed key part i) ++ 0x7D :: rest))
      (∃ i ∈ l, deep i)
      (l.foldl (fun sofar i ↦ put (key i) (content i) sofar) sofar, rest) := by
  induction l generalizing turns sofar with
  | nil =>
    obtain ⟨turns, rfl⟩ : ∃ n, turns = n + 1 := ⟨turns - 1, by omega⟩
    exact (Outcome.of_eq rfl).congr exists_mem_nil_iff.symm
  | cons i l ih =>
    obtain ⟨turns, rfl⟩ : ∃ n, turns = n + 1 := ⟨turns - 1, by omega⟩
    obtain ⟨hi, hl⟩ := List.forall_mem_cons.mp h
    have hothers := ih hl (Nat.lt_of_succ_lt_succ hturns) (put (key i) (content i) sofar)
    rw [List.flatMap_cons, List.cons_append, List.cons_append, List.append_assoc,
      entries_succ (nextKey_comma i _)]
    exact ((hi.outcome _ (ends_flatMap _ l (.inr rfl) rest)).bind hothers).congr
      exists_mem_cons_iff.symm

theorem objectOf_joined (key : ι → String) (put : String → α → β → β)
    (h : ∀ i ∈ l, Fits (part i) read (deep i) (content i)) (empty : β) (rest : List UInt8) :
    Outcome (objectOf read put empty (joined (keyed key part) l ++ 0x7D :: rest))
      (∃ i ∈ l, deep i)
      (l.foldl (fun sofar i ↦ put (key i) (content i) sofar) empty, rest) := by
  cases l with
  | nil => exact (Outcome.of_eq rfl).congr exists_mem_nil_iff.symm
  | cons i l =>
    obtain ⟨hi, hl⟩ := List.forall_mem_cons.mp h
    have hlength := length_le_flatMap (keyed key part) l
    have hturns : l.length < (joined (keyed key part) (i :: l) ++ 0x7D :: rest).length := by
      simp only [joined, List.length_append, List.length_cons]
      omega
    have hothers := entries_tail key put hl hturns (put (key i) (content i) empty) rest
    rw [joined, List.append_assoc] at hturns hothers ⊢
    rw [objectOf, entries_succ (nextKey_first i _)]
    exact ((hi.outcome _ (ends_flatMap _ l (.inr rfl) rest)).bind hothers).congr
      exists_mem_cons_iff.symm

end TypedPacket.Json
