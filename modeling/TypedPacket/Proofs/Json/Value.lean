import Mathlib.Tactic.Choose
import Mathlib.Tactic.IntervalCases
import TypedPacket.Proofs.Json.Container
import TypedPacket.Proofs.Json.Double
import TypedPacket.Proofs.Json.Shape

/-!
# Values in JSON

What is written for a value is read, whatever ends it, unless containers are nested in it too deep
for the reader, and a value without fractions is read back as it is (`Stored`). This goes up from
the values without parts to lists and objects (`stored_list`, `stored_object`), and so to every
value whose objects are maps (`stored_value`, `readAll_write`).
-/

set_option autoImplicit false
set_option relaxedAutoImplicit false

namespace TypedPacket.Json

open Value (depth itemsDepth fieldsDepth)

/-- What is written for a value is read where the reader is deep enough for it, and is refused for
its depth elsewhere. An exact value is read back as it is. -/
def Stored (content : Value) : Prop :=
  ∃ part back, Appends content.emit part ∧ (content.Exact → back = content) ∧
    ∀ n, Fits part (value n) (n ≤ content.depth) back

theorem stored_leaf {content back : Value} {part : List UInt8} (hdepth : content.depth = 0)
    (happends : Appends content.emit part) (hexact : content.Exact → back = content)
    (hstarts : Starts part)
    (hread : ∀ n rest, Ends rest → value (n + 1) (part ++ rest) = .ok (back, rest)) :
    Stored content := by
  refine ⟨part, back, happends, hexact, fun n ↦ ⟨hstarts, fun rest hrest ↦ ?_⟩⟩
  cases n with
  | zero => exact ⟨fun h ↦ absurd (Nat.zero_le _) h, fun _ ↦ ⟨_, rfl⟩⟩
  | succ n =>
    refine ⟨fun _ ↦ hread n rest hrest, fun hdeep ↦ ?_⟩
    rw [hdepth] at hdeep
    exact absurd hdeep (Nat.not_succ_le_zero n)

theorem stored_null : Stored .null :=
  stored_leaf rfl (Appends.append "null".toUTF8) (fun _ ↦ rfl)
    ⟨0x6E, nullTail, rfl, rfl, by decide⟩ fun _ _ _ ↦ rfl

theorem stored_flag (content : Bool) : Stored (.flag content) := by
  cases content with
  | false =>
    exact stored_leaf rfl (Appends.append "false".toUTF8) (fun _ ↦ rfl)
      ⟨0x66, falseTail, rfl, rfl, by decide⟩ fun _ _ _ ↦ rfl
  | true =>
    exact stored_leaf rfl (Appends.append "true".toUTF8) (fun _ ↦ rfl)
      ⟨0x74, trueTail, rfl, rfl, by decide⟩ fun _ _ _ ↦ rfl

theorem stored_text (content : String) : Stored (.text content) := by
  refine stored_leaf rfl (appends_emitText content) (fun _ ↦ rfl)
    ⟨0x22, quoted content, rfl, rfl, by decide⟩ fun n rest _ ↦ ?_
  have hvalue : value (n + 1) (0x22 :: (quoted content ++ rest)) =
      (text (quoted content ++ rest)).bind fun found ↦ .ok (.text found.1, found.2) := rfl
  rw [List.cons_append, hvalue, text_quoted]
  rfl

/-! ### Numbers -/

/-- A digit starts a number. -/
theorem value_digit {octet : UInt8} (h : isDigit octet = true) (n : Nat) (rest : List UInt8) :
    value (n + 1) (octet :: rest) = (do
      let (number, rest) ← number false (octet :: rest)
      .ok (.number number, rest)) := by
  obtain ⟨m, hlow, hhigh, rfl⟩ := exists_of_isDigit h
  interval_cases m <;> rfl

/-- A minus sign starts a number. -/
theorem value_minus (n : Nat) (rest : List UInt8) :
    value (n + 1) (0x2D :: rest) = (do
      let (number, rest) ← number true rest
      .ok (.number number, rest)) := rfl

/-- What is written for a number is a sign, if it has one, and then starts with a digit. -/
theorem stored_signed {content back : Number} (negative : Bool) {octet : UInt8} {body : List UInt8}
    (hwritten : octets content.show.toUTF8 = (if negative then [0x2D] else []) ++ octet :: body)
    (hdigit : isDigit octet = true) (hexact : (Value.number content).Exact → back = content)
    (hread : ∀ rest, Ends rest → number negative (octet :: body ++ rest) = .ok (back, rest)) :
    Stored (.number content) := by
  have happends : Appends (Value.number content).emit (octets content.show.toUTF8) :=
    Appends.append content.show.toUTF8
  have hback : (Value.number content).Exact → Value.number back = .number content :=
    fun h ↦ congrArg Value.number (hexact h)
  rw [hwritten] at happends
  cases negative with
  | false =>
    refine stored_leaf rfl happends hback (starts_digit hdigit body) fun n rest hrest ↦ ?_
    have hvalue := value_digit hdigit n (body ++ rest)
    rw [← List.cons_append, hread rest hrest] at hvalue
    exact hvalue
  | true =>
    refine stored_leaf rfl happends hback ⟨0x2D, _, rfl, rfl, by decide⟩ fun n rest hrest ↦ ?_
    have hvalue := value_minus n (octet :: body ++ rest)
    rw [hread rest hrest] at hvalue
    exact hvalue

theorem stored_integer (n : Int) (range : -2 ^ 63 ≤ n ∧ n < 2 ^ 64) :
    Stored (.number (.integer n range)) := by
  cases n with
  | ofNat m =>
    obtain ⟨octet, body, hdigits, hdigit⟩ := exists_toDigits_octet m
    have hwritten : octets (toString (Int.ofNat m)).toUTF8 = octet :: body :=
      (octets_toString m).trans hdigits
    refine stored_signed false hwritten hdigit (fun _ ↦ rfl) fun rest hrest ↦ ?_
    rw [← hdigits]
    exact number_digits false (fun h ↦ Bool.false_ne_true h.1) rfl range hrest
  | negSucc m =>
    obtain ⟨octet, body, hdigits, hdigit⟩ := exists_toDigits_octet (m + 1)
    have hwritten : octets (toString (Int.negSucc m)).toUTF8 = 0x2D :: octet :: body :=
      (octets_append_text "-" (m + 1).repr).trans
        (congrArg (0x2D :: ·) ((octets_toString (m + 1)).trans hdigits))
    refine stored_signed true hwritten hdigit (fun _ ↦ rfl) fun rest hrest ↦ ?_
    rw [← hdigits]
    exact number_digits true (fun h ↦ Nat.succ_ne_zero m h.2) rfl range hrest

theorem stored_number (number : Number) : Stored (.number number) := by
  cases number with
  | integer n range => exact stored_integer n range
  | double bits finite =>
    obtain ⟨negative, octet, body, back, hwritten, hdigit, hread⟩ :=
      exists_number_double numberStyle finite
    exact stored_signed negative hwritten hdigit (fun hexact ↦ False.elim hexact) hread

/-! ### Containers -/

/-- A container is stored if inside it the values are read where they are not too deep. -/
theorem stored_container {content : Value} {deepest : Nat} (part : List UInt8) (back : Value)
    (hdepth : content.depth = deepest + 1) (happends : Appends content.emit part)
    (hexact : content.Exact → back = content) (hstarts : Starts part)
    (hshallow : ∀ rest, ∃ left, value 1 (part ++ rest) = .error ⟨.tooDeep, left⟩)
    (hread : ∀ n rest, 0 < n → Ends rest →
      Outcome (value (n + 1) (part ++ rest)) (n ≤ deepest) (back, rest)) : Stored content := by
  refine ⟨part, back, happends, hexact, fun n ↦ ⟨hstarts, fun rest hrest ↦ ?_⟩⟩
  cases n with
  | zero => exact ⟨fun h ↦ absurd (Nat.zero_le _) h, fun _ ↦ ⟨_, rfl⟩⟩
  | succ n =>
    rw [hdepth]
    rcases Nat.eq_zero_or_pos n with rfl | hn
    · exact ⟨fun h ↦ absurd (Nat.le_add_left 1 deepest) h, fun _ ↦ hshallow rest⟩
    · exact (hread n rest hn hrest).congr Nat.succ_le_succ_iff.symm

theorem stored_list {items : List Value} (h : ∀ item ∈ items, Stored item) :
    Stored (.list items) := by
  choose! part back happends hexact hfits using h
  refine stored_container (0x5B :: (joined part items ++ [0x5D]))
    (.list (items.map back)) rfl ?_ ?_ ⟨0x5B, _, rfl, rfl, by decide⟩ ?_ ?_
  · have hitems : Appends (emitItems items) (joined part items) :=
      appends_joined _ _ (fun _ ↦ rfl) (fun _ _ ↦ rfl) (fun _ _ _ _ ↦ rfl) happends
    exact ((Appends.push 0x5B).andThen hitems).andThen (Appends.push 0x5D)
  · intro hitems
    obtain ⟨-, hitems⟩ := Value.everywhere_list.mp hitems
    rw [List.map_congr_left fun item hitem ↦ hexact item hitem (hitems item hitem), List.map_id']
  · exact fun rest ↦ ⟨_, rfl⟩
  · intro n rest hn _
    have hvalue : value (n + 1) (0x5B :: (joined part items ++ 0x5D :: rest)) =
        (listOf (value n) (joined part items ++ 0x5D :: rest)).bind fun found ↦
          .ok (.list found.1, found.2) := if_neg (Nat.ne_of_gt hn)
    have hitems := listOf_joined (fun item hitem ↦ hfits item hitem n) rest
    rw [List.cons_append, List.append_assoc, List.singleton_append, hvalue]
    refine (hitems.map ?_).congr (Value.le_itemsDepth hn).symm
    rfl

/-- Putting fields in increasing order of their keys behind those before them. -/
theorem foldl_place {fields : List (String × Value)} {back : String × Value → Value}
    (sofar : List (String × Value))
    (h : (sofar.map (·.1) ++ fields.map (·.1)).Pairwise (· < ·)) :
    fields.foldl (fun sofar field ↦ Entries.place field.1 (back field) sofar) sofar =
      sofar ++ fields.map fun field ↦ (field.1, back field) := by
  induction fields generalizing sofar with
  | nil => exact (List.append_nil sofar).symm
  | cons field fields ih =>
    have hlast : ∀ entry ∈ sofar, entry.1 < field.1 := fun entry hentry ↦
      (List.pairwise_append.mp h).2.2 _ (List.mem_map_of_mem hentry) _ List.mem_cons_self
    have hnext : ((sofar ++ [(field.1, back field)]).map (·.1) ++
        fields.map (·.1)).Pairwise (· < ·) := by
      rw [List.map_append, List.map_singleton, ← List.append_cons]
      exact h
    rw [List.foldl_cons, Entries.place_of_forall_lt _ hlast, ih _ hnext, List.map_cons,
      List.append_assoc, List.singleton_append]

theorem stored_object {fields : List (String × Value)} (hsorted : Entries.Sorted fields)
    (h : ∀ field ∈ fields, Stored field.2) : Stored (.object fields) := by
  choose! part back happends hexact hfits using h
  refine stored_container (0x7B :: (joined (keyed (·.1) part) fields ++ [0x7D]))
    (.object (fields.map fun field ↦ (field.1, back field))) rfl ?_ ?_
    ⟨0x7B, _, rfl, rfl, by decide⟩ ?_ ?_
  · have hfield : ∀ field ∈ fields, Appends
        (fun out ↦ field.2.emit ((emitText field.1 out).push 0x3A)) (keyed (·.1) part field) :=
      fun field hfield ↦ appends_keyed field.1 (happends field hfield)
    have hfields : Appends (emitFields fields) (joined (keyed (·.1) part) fields) :=
      appends_joined _ _ (fun _ ↦ rfl) (fun _ _ ↦ rfl) (fun _ _ _ _ ↦ rfl) hfield
    exact ((Appends.push 0x7B).andThen hfields).andThen (Appends.push 0x7D)
  · intro hfields
    obtain ⟨-, hfields⟩ := Value.everywhere_object.mp hfields
    rw [List.map_congr_left fun field hfield ↦
      congrArg (field.1, ·) (hexact field hfield (hfields field hfield)), List.map_id']
  · exact fun rest ↦ ⟨_, rfl⟩
  · intro n rest hn _
    have hvalue : value (n + 1) (0x7B :: (joined (keyed (·.1) part) fields ++ 0x7D :: rest)) =
        (objectOf (value n) Entries.place []
          (joined (keyed (·.1) part) fields ++ 0x7D :: rest)).bind fun found ↦
            .ok (.object found.1, found.2) := if_neg (Nat.ne_of_gt hn)
    have hfields := objectOf_joined (·.1) Entries.place
      (fun field hfield ↦ hfits field hfield n) [] rest
    rw [foldl_place [] (List.pairwise_map.mpr hsorted), List.nil_append] at hfields
    rw [List.cons_append, List.append_assoc, List.singleton_append, hvalue]
    refine (hfields.map ?_).congr (Value.le_fieldsDepth hn).symm
    rfl

/-- A value whose objects are maps is stored. -/
theorem stored_value (content : Value) (hordered : content.Ordered) : Stored content := by
  induction content using Value.inside_induction with
  | null => exact stored_null
  | flag content => exact stored_flag content
  | number number => exact stored_number number
  | text content => exact stored_text content
  | list items ih =>
    obtain ⟨-, hordered⟩ := Value.everywhere_list.mp hordered
    exact stored_list fun item hitem ↦ ih item hitem (hordered item hitem)
  | object fields ih =>
    obtain ⟨hsorted, hordered⟩ := Value.everywhere_object.mp hordered
    exact stored_object hsorted fun field hfield ↦ ih field hfield (hordered field hfield)

/-- What is written for a value is read to its end, unless containers are nested in it too deep to
be read. An exact value is read back as it is. -/
theorem readAll_write {content : Value} (hordered : content.Ordered) :
    ∃ back, (content.Exact → back = content) ∧
      Outcome (readAll (value depthLimit) (octets content.write)) (depthLimit ≤ content.depth)
        back := by
  obtain ⟨part, back, happends, hexact, hfits⟩ := stored_value content hordered
  refine ⟨back, hexact, ?_⟩
  have hnothing : Ends [] := by rintro octet ⟨⟩
  have hread := (hfits depthLimit).outcome [] hnothing
  rw [List.append_nil] at hread
  rw [Value.write, happends.octets_empty]
  exact hread.map rfl

end TypedPacket.Json
