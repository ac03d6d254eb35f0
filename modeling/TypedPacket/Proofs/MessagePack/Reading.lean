import Mathlib.Tactic.IntervalCases
import TypedPacket.MessagePack.Reader
import TypedPacket.Proofs.Json.Shape
import TypedPacket.Proofs.Reading
import TypedPacket.Proofs.Text.Map

/-!
# What octets in MessagePack are read as

A marker is a head by itself, or announces a number of so many octets, or is reserved
(`Head.read_marker`). So a head tells where it ends, and with it a text, a list and a map: what the
reader takes of octets it takes whatever follows (`selfDelimiting_value`).

Lengths stand in four octets at most. So whatever the octets are, the value that is read of them is
one that can be written: its objects are maps, its parts are shorter than `2 ^ 32`, and containers
are nested in it no deeper than the reader goes (`yields_value`).
-/

set_option autoImplicit false
set_option relaxedAutoImplicit false

namespace TypedPacket.MessagePack

open Json (Value)

/-! ### Heads -/

namespace Head

/-- What is announced of the length of a value is less than `2 ^ 32`. -/
def Counted : Head → Prop
  | .text n | .octets n | .list n | .map n => n < 2 ^ 32
  | _ => True

/-- A marker is a head, or comes before a number, or is reserved. -/
theorem read_marker (marker : UInt8) :
    (∃ head : Head, head.Counted ∧ ∀ rest, read (marker :: rest) = .ok (head, rest)) ∨
    (∃ width make, (∀ n < 256 ^ width, (make n).Counted) ∧
      ∀ rest, read (marker :: rest) = numbered width make rest) ∨
    ∀ rest, read (marker :: rest) = .error .reserved := by
  have hsmall : ∀ base, marker.toNat - base < 2 ^ 32 := fun base ↦ by
    have := marker.toNat_lt
    omega
  by_cases hnatural : marker < 0x80
  · exact .inl ⟨.natural _, trivial, fun _ ↦ if_pos hnatural⟩
  by_cases hmap : marker < 0x90
  · exact .inl ⟨.map _, hsmall _, fun _ ↦ (if_neg hnatural).trans (if_pos hmap)⟩
  by_cases hlist : marker < 0xA0
  · exact .inl ⟨.list _, hsmall _, fun _ ↦
      (if_neg hnatural).trans <| (if_neg hmap).trans (if_pos hlist)⟩
  by_cases htext : marker < 0xC0
  · exact .inl ⟨.text _, hsmall _, fun _ ↦
      (if_neg hnatural).trans <| (if_neg hmap).trans <| (if_neg hlist).trans (if_pos htext)⟩
  -- The other markers are told one by one.
  obtain ⟨n, hn, rfl⟩ : ∃ n < 256, marker = UInt8.ofNat n :=
    ⟨marker.toNat, marker.toNat_lt, UInt8.ofNat_toNat.symm⟩
  have hlow : 0xC0 ≤ n := by
    rw [UInt8.lt_iff_toNat_lt, UInt8.toNat_ofNat', Nat.mod_eq_of_lt hn] at htext
    exact Nat.le_of_not_lt htext
  clear hsmall hnatural hmap hlist htext
  interval_cases n
  all_goals try exact .inl ⟨_, by exact trivial, fun _ ↦ rfl⟩
  all_goals try exact .inr (.inr fun _ ↦ rfl)
  all_goals refine .inr (.inl ?_)
  case «202» =>
    exact ⟨4, fun n ↦ .double (Binary64.ofBinary32 (UInt32.ofNat n)), fun _ _ ↦ trivial,
      fun _ ↦ rfl⟩
  case «203» => exact ⟨8, fun n ↦ .double (UInt64.ofNat n), fun _ _ ↦ trivial, fun _ ↦ rfl⟩
  all_goals try exact ⟨_, fun n ↦ .signed (signedOf _ n), fun _ _ ↦ trivial, fun _ ↦ rfl⟩
  all_goals refine ⟨_, _, ?_, fun _ ↦ rfl⟩
  all_goals try exact fun _ _ ↦ trivial
  all_goals exact fun n hn ↦ Nat.lt_of_lt_of_le hn (by decide)

end Head

theorem selfDelimiting_numberOf (width : Nat) : SelfDelimiting (numberOf width) :=
  SelfDelimiting.take width ofBigEndian Fault.numberCut

theorem yields_numberOf (width : Nat) : Yields (numberOf width) (· < 256 ^ width) := by
  refine Yields.take width ofBigEndian Fault.numberCut fun front hlength ↦ ?_
  rw [← hlength]
  exact ofBigEndian_lt front

theorem selfDelimiting_head : SelfDelimiting Head.read := by
  refine SelfDelimiting.cons rfl fun marker ↦ ?_
  rcases Head.read_marker marker with ⟨head, -, hread⟩ | ⟨width, make, -, hread⟩ | hread
  · exact (SelfDelimiting.pure head).congr hread
  · exact ((selfDelimiting_numberOf width).map make).congr hread
  · exact (SelfDelimiting.error .reserved).congr hread

theorem yields_head : Yields Head.read Head.Counted := by
  intro input head rest h
  cases input with
  | nil => cases h
  | cons marker behind =>
    rcases Head.read_marker marker with ⟨alone, hcounted, hread⟩ | ⟨width, make, hcounted, hread⟩ |
      hread
    · obtain ⟨rfl, -⟩ := Prod.mk.inj (Except.ok.inj ((hread behind).symm.trans h))
      exact hcounted
    · exact (yields_numberOf width).map make hcounted behind head rest
        ((hread behind).symm.trans h)
    · cases (hread behind).symm.trans h

/-! ### Texts -/

theorem selfDelimiting_body (length : Nat) : SelfDelimiting (body length) :=
  SelfDelimiting.take length id Fault.bodyCut

theorem yields_body (length : Nat) : Yields (body length) (·.length = length) :=
  Yields.take length id Fault.bodyCut fun _ hlength ↦ hlength

/-- Octets that are taken for a text tell where they end, whatever is said of others. -/
theorem selfDelimiting_decoded (length : Nat) (refuse : Utf8.Fault → Fault) :
    SelfDelimiting fun input ↦ body length input >>= fun (front, rest) ↦
      match Utf8.decode front.toByteArray with
      | .ok text => .ok (text, rest)
      | .error fault => .error (refuse fault) := by
  refine (selfDelimiting_body length).bind fun front ↦ ?_
  dsimp only
  cases Utf8.decode front.toByteArray with
  | ok text => exact .pure text
  | error fault => exact .error _

/-- A text is as long as the octets that are taken for it. -/
theorem yields_decoded (length : Nat) (refuse : Utf8.Fault → Fault) :
    Yields (fun input ↦ body length input >>= fun (front, rest) ↦
      match Utf8.decode front.toByteArray with
      | .ok text => .ok (text, rest)
      | .error fault => .error (refuse fault)) (·.toUTF8.size = length) := by
  refine (yields_body length).bind fun front hlength ↦ ?_
  dsimp only
  cases hdecode : Utf8.decode front.toByteArray with
  | ok text =>
    refine Yields.pure ?_
    rw [← Utf8.decode_eq_ok_iff.mp hdecode, List.size_toByteArray, hlength]
  | error fault => exact .error _

theorem selfDelimiting_textBody (length : Nat) : SelfDelimiting (textBody length) :=
  selfDelimiting_decoded length .badText

theorem yields_textBody (length : Nat) :
    Yields (textBody length) (·.toUTF8.size = length) :=
  yields_decoded length .badText

/-- Where something else is expected, nothing is read. -/
theorem unexpected_ne_ok {α : Type} {expected : String} {head : Head} {input : List UInt8}
    {result : α} : (unexpected expected head input : Except Fault α) ≠ .ok result := by
  cases head with
  | text length =>
    intro h
    obtain ⟨⟨text, rest⟩, -, hresult⟩ := bind_eq_ok_iff.mp h
    cases hresult
  | octets length =>
    intro h
    obtain ⟨_, -, hresult⟩ := bind_eq_ok_iff.mp h
    cases hresult
  | _ => nofun

theorem selfDelimiting_textWhere (expected : String) : SelfDelimiting (textWhere expected) := by
  refine selfDelimiting_head.bind fun head ↦ ?_
  cases head with
  | text length => exact selfDelimiting_textBody length
  | octets length =>
    exact selfDelimiting_decoded length fun _ ↦ .mismatch (.wrongValue .octets expected)
  | _ => exact .of_ne_ok fun _ _ ↦ unexpected_ne_ok

theorem yields_textWhere (expected : String) :
    Yields (textWhere expected) (·.toUTF8.size < 2 ^ 32) := by
  refine yields_head.bind fun head hcounted ↦ ?_
  cases head with
  | text length => exact (yields_textBody length).mono fun _ hsize ↦ hsize ▸ hcounted
  | octets length =>
    have hdecoded := yields_decoded length fun _ ↦ .mismatch (.wrongValue .octets expected)
    exact hdecoded.mono fun _ hsize ↦ hsize ▸ hcounted
  | _ => exact .of_ne_ok fun _ _ ↦ unexpected_ne_ok

theorem selfDelimiting_firstKey : SelfDelimiting firstKey := by
  refine selfDelimiting_head.bind fun head ↦ ?_
  cases head with
  | text length => exact selfDelimiting_textBody length
  | _ => exact .of_ne_ok fun _ _ ↦ unexpected_ne_ok

theorem yields_firstKey : Yields firstKey (·.toUTF8.size < 2 ^ 32) := by
  refine yields_head.bind fun head hcounted ↦ ?_
  cases head with
  | text length => exact (yields_textBody length).mono fun _ hsize ↦ hsize ▸ hcounted
  | _ => exact .of_ne_ok fun _ _ ↦ unexpected_ne_ok

/-! ### Values in a row -/

section Rows

variable {α β : Type} {item value : Reader α} {key : Reader String}

theorem items_succ (item : Reader α) (count : Nat) (sofar : List α) (input : List UInt8) :
    items item (count + 1) sofar input =
      item input >>= fun (value, rest) ↦ items item count (value :: sofar) rest := by
  rw [items]
  cases item input <;> rfl

theorem entries_succ (key : Reader String) (value : Reader α) (put : String → α → β → β)
    (count : Nat) (sofar : β) (input : List UInt8) :
    entries key value put (count + 1) sofar input =
      key input >>= fun (name, rest) ↦ value rest >>= fun (content, rest) ↦
        entries key value put count (put name content sofar) rest := by
  rw [entries]
  cases key input with
  | error fault => rfl
  | ok found =>
    simp only [bind, Except.bind]
    cases value found.2 <;> rfl

theorem selfDelimiting_items (hitem : SelfDelimiting item) (count : Nat) (sofar : List α) :
    SelfDelimiting (items item count sofar) := by
  induction count generalizing sofar with
  | zero => exact .pure sofar.reverse
  | succ count ih =>
    exact (hitem.bind fun value ↦ ih (value :: sofar)).congr (items_succ item count sofar)

theorem yields_items {p : α → Prop} (hitem : Yields item p) (count : Nat) (sofar : List α)
    (hsofar : ∀ value ∈ sofar, p value) : Yields (items item count sofar) fun l ↦
      l.length = sofar.length + count ∧ ∀ value ∈ l, p value := by
  induction count generalizing sofar with
  | zero =>
    exact Yields.pure ⟨List.length_reverse,
      fun value hvalue ↦ hsofar value (List.mem_reverse.mp hvalue)⟩
  | succ count ih =>
    rw [funext (items_succ item count sofar)]
    refine hitem.bind fun value hvalue ↦ ?_
    refine (ih (value :: sofar) (List.forall_mem_cons.mpr ⟨hvalue, hsofar⟩)).mono fun l hl ↦
      ⟨?_, hl.2⟩
    rw [hl.1, List.length_cons]
    omega

theorem selfDelimiting_entries (hkey : SelfDelimiting key) (hvalue : SelfDelimiting value)
    (put : String → α → β → β) (count : Nat) (sofar : β) :
    SelfDelimiting (entries key value put count sofar) := by
  induction count generalizing sofar with
  | zero => exact .pure sofar
  | succ count ih =>
    exact (hkey.bind fun name ↦ hvalue.bind fun content ↦ ih (put name content sofar)).congr
      (entries_succ key value put count sofar)

/-- What putting an entry preserves, with the number of entries, holds of what is read. -/
theorem yields_entries {p : String → Prop} {q : α → Prop} {put : String → α → β → β}
    (hkey : Yields key p) (hvalue : Yields value q) (kept : Nat → β → Prop)
    (hput : ∀ n name content sofar, p name → q content → kept n sofar →
      kept (n + 1) (put name content sofar)) {n : Nat} {sofar : β} (hsofar : kept n sofar)
    (count : Nat) : Yields (entries key value put count sofar) (kept (n + count)) := by
  induction count generalizing n sofar with
  | zero => exact Yields.pure hsofar
  | succ count ih =>
    rw [funext (entries_succ key value put count sofar)]
    refine hkey.bind fun name hname ↦ hvalue.bind fun content hcontent ↦ ?_
    rw [Nat.add_comm count 1, ← Nat.add_assoc]
    exact ih (hput n name content sofar hname hcontent hsofar)

end Rows

/-! ### Values -/

/-- A value can be written, and read where containers may be nested below the depth. -/
structure Storable (depth : Nat) (content : Value) : Prop extends content.Shallow depth where
  within : content.Within (2 ^ 32)

/-- Fields of an object that can be written, no more of them than so many. -/
structure StorableFields (depth count : Nat) (fields : List (String × Value)) : Prop extends
    Entries.Holds (fun field ↦ field.1.toUTF8.size < 2 ^ 32 ∧ Storable depth field.2) fields where
  length_le : fields.length ≤ count

variable {depth count : Nat}

theorem storable_list {items : List Value} (hdepth : 0 < depth) (hlength : items.length < 2 ^ 32)
    (h : ∀ item ∈ items, Storable depth item) : Storable (depth + 1) (.list items) where
  toShallow := Value.shallow_list hdepth fun item hitem ↦ (h item hitem).toShallow
  within := Value.everywhere_list.mpr ⟨hlength, fun item hitem ↦ (h item hitem).within⟩

theorem storable_number (number : Option Json.Number) :
    Storable (depth + 1) ((number.map Value.number).getD .null) := by
  cases number <;> exact ⟨⟨trivial, Nat.succ_pos depth⟩, trivial⟩

namespace StorableFields

variable {name : String} {content : Value} {fields : List (String × Value)}

theorem nil : StorableFields depth 0 [] := ⟨Entries.holds_nil, Nat.le_refl 0⟩

theorem place (h : StorableFields depth count fields) (hname : name.toUTF8.size < 2 ^ 32)
    (hcontent : Storable depth content) :
    StorableFields depth (count + 1) (Entries.place name content fields) where
  toHolds := h.toHolds.place ⟨hname, hcontent⟩
  length_le := (Entries.length_place_le name content fields).trans (Nat.succ_le_succ h.length_le)

theorem storable (h : StorableFields depth count fields) (hdepth : 0 < depth)
    (hcount : count < 2 ^ 32) : Storable (depth + 1) (.object fields) where
  toShallow := Value.shallow_object hdepth h.sorted fun field hfield ↦
    (h.each field hfield).2.toShallow
  within := Value.everywhere_object.mpr
    ⟨⟨h.length_le.trans_lt hcount, fun field hfield ↦ (h.each field hfield).1⟩,
      fun field hfield ↦ (h.each field hfield).2.within⟩

end StorableFields

/-- A value tells where it ends. -/
theorem selfDelimiting_value (depth : Nat) : SelfDelimiting (value depth) := by
  induction depth with
  | zero => exact .error Fault.tooDeep
  | succ depth ih =>
    refine selfDelimiting_head.bind fun head ↦ ?_
    dsimp only
    cases head with
    | nil => exact .pure Value.null
    | flag content => exact .pure (Value.flag content)
    | natural n => exact .pure _
    | signed n => exact .pure _
    | double bits => exact .pure _
    | text length => exact (selfDelimiting_textBody length).map Value.text
    | list count =>
      dsimp only
      split
      · exact .error Fault.tooDeep
      · exact (selfDelimiting_items ih count []).map Value.list
    | map count =>
      dsimp only
      split
      · exact .error Fault.tooDeep
      · cases count with
        | zero => exact .pure (Value.object [])
        | succ count =>
          refine selfDelimiting_firstKey.bind fun key ↦ ?_
          dsimp only
          refine ih.bind fun content ↦ ?_
          have hothers := selfDelimiting_entries (selfDelimiting_textWhere "a string") ih
            Entries.place count [(key, content)]
          exact hothers.map Value.object
    | octets length => exact .of_ne_ok fun _ _ ↦ unexpected_ne_ok
    | extension length => exact .of_ne_ok fun _ _ ↦ unexpected_ne_ok

/-- Whatever is read can be written and read again. -/
theorem yields_value (depth : Nat) : Yields (value depth) (Storable depth) := by
  induction depth with
  | zero => exact .error Fault.tooDeep
  | succ depth ih =>
    refine yields_head.bind fun head hcounted ↦ ?_
    dsimp only
    cases head with
    | nil => exact .pure ⟨⟨trivial, Nat.succ_pos depth⟩, trivial⟩
    | flag content => exact .pure ⟨⟨trivial, Nat.succ_pos depth⟩, trivial⟩
    | natural n => exact .pure (storable_number _)
    | signed n => exact .pure (storable_number _)
    | double bits => exact .pure (storable_number _)
    | text length =>
      refine (yields_textBody length).map Value.text fun content hsize ↦ ?_
      exact ⟨⟨trivial, Nat.succ_pos depth⟩, hsize.trans_lt hcounted⟩
    | list count =>
      dsimp only
      split
      · exact .error Fault.tooDeep
      · rename_i hdepth
        refine (yields_items ih count [] nofun).map Value.list fun items hitems ↦ ?_
        rw [List.length_nil, Nat.zero_add] at hitems
        exact storable_list (Nat.pos_of_ne_zero hdepth) (hitems.1.trans_lt hcounted) hitems.2
    | map count =>
      dsimp only
      split
      · exact .error Fault.tooDeep
      · rename_i hdepth
        have hpos := Nat.pos_of_ne_zero hdepth
        cases count with
        | zero => exact .pure (StorableFields.nil.storable hpos hcounted)
        | succ count =>
          refine yields_firstKey.bind fun key hkey ↦ ?_
          dsimp only
          refine ih.bind fun content hcontent ↦ ?_
          have hothers := yields_entries (yields_textWhere "a string") ih (StorableFields depth)
            (fun _ _ _ _ hname hitem hsofar ↦ hsofar.place hname hitem)
            (StorableFields.nil.place hkey hcontent) count
          refine hothers.map Value.object fun fields hfields ↦ hfields.storable hpos ?_
          rwa [Nat.zero_add, Nat.add_comm]
    | octets length => exact .of_ne_ok fun _ _ ↦ unexpected_ne_ok
    | extension length => exact .of_ne_ok fun _ _ ↦ unexpected_ne_ok

end TypedPacket.MessagePack
