import Mathlib.Tactic.IntervalCases
import Mathlib.Tactic.SplitIfs
import TypedPacket.MessagePack.Reader
import TypedPacket.MessagePack.Writer
import TypedPacket.Proofs.Emission
import TypedPacket.Proofs.Json.Shape

/-!
# Values in MessagePack

What is written for a number, a text, a list or a map starts with a head that announces it
(`Announces`); sizes are announced modulo `2 ^ 32`. So a value whose objects are maps and whose
texts, lists and objects are shorter than that is read back as it is, whatever follows it, unless
containers are nested in it too deep for the reader (`stored_value`, `readValue_writeValue`). Where
fewer than `2 ^ 32` octets are written, nothing in the value is too long (`within_of_size`).
-/

set_option autoImplicit false
set_option relaxedAutoImplicit false

namespace TypedPacket.MessagePack

variable {n width : Nat}

/-! ### Heads -/

theorem numberOf_bigEndian (width n : Nat) (rest : List UInt8) :
    numberOf width (bigEndian width n ++ rest) = .ok (n % 256 ^ width, rest) := by
  have hlength := length_bigEndian width n
  simp only [numberOf, List.take_left' hlength, List.drop_left' hlength, hlength, if_true,
    ofBigEndian_bigEndian]

theorem appends_marked (marker : UInt8) (width n : Nat) :
    Appends (marked marker width n) (marker :: bigEndian width n) :=
  (Appends.push marker).andThen (Appends.pushAll _)

/-- What is appended announces a head: the head is read from it, whatever follows. -/
def Announces (emit : ByteArray → ByteArray) (head : Head) : Prop :=
  ∃ part, Appends emit part ∧ ∀ rest, Head.read (part ++ rest) = .ok (head, rest)

theorem announces_marked {marker : UInt8} {make : Nat → Head}
    (hmarker : ∀ input, Head.read (marker :: input) = Head.numbered width make input) (n : Nat) :
    Announces (marked marker width n) (make (n % 256 ^ width)) := by
  refine ⟨_, appends_marked marker width n, fun rest ↦ ?_⟩
  rw [List.cons_append, hmarker, Head.numbered, numberOf_bigEndian]
  rfl

/-- A number with room enough. -/
theorem announces_marked_of_lt {marker : UInt8} {make : Nat → Head}
    (hmarker : ∀ input, Head.read (marker :: input) = Head.numbered width make input)
    (hn : n < 256 ^ width) : Announces (marked marker width n) (make n) := by
  have hmarked := announces_marked hmarker n
  rwa [Nat.mod_eq_of_lt hn] at hmarked

theorem length_pos_of_read {part : List UInt8} {head : Head}
    (hread : ∀ rest, Head.read (part ++ rest) = .ok (head, rest)) : 0 < part.length := by
  refine List.length_pos_iff.mpr fun hnil ↦ ?_
  subst hnil
  cases hread []

/-- A marker that is a head by itself. -/
theorem announces_push {marker : UInt8} {head : Head}
    (hmarker : ∀ input, Head.read (marker :: input) = .ok (head, input)) :
    Announces (fun out ↦ out.push marker) head :=
  ⟨_, Appends.push marker, hmarker⟩

theorem announces_natural (hn : n < 2 ^ 64) : Announces (emitNatural n) (.natural n) := by
  change Announces (fun out ↦ emitNatural n out) _
  simp only [emitNatural]
  split_ifs with hsmall
  · refine announces_push fun input ↦ ?_
    have hmarker : UInt8.ofNat n < 0x80 := by
      rw [UInt8.lt_iff_toNat_lt, UInt8.toNat_ofNat', Nat.mod_eq_of_lt (by omega)]
      exact hsmall
    refine (if_pos hmarker).trans ?_
    rw [UInt8.toNat_ofNat', Nat.mod_eq_of_lt (by omega)]
  · exact announces_marked_of_lt (fun _ ↦ rfl) (by omega)
  · exact announces_marked_of_lt (fun _ ↦ rfl) (by omega)
  · exact announces_marked_of_lt (fun _ ↦ rfl) (by omega)
  · exact announces_marked_of_lt (fun _ ↦ rfl) (by omega)

theorem announces_nonnegative {n : Int} (hpos : 0 ≤ n) (hhigh : n < 2 ^ 64) :
    Announces (emitInteger n) (.natural n.toNat) := by
  have hwritten : emitInteger n = emitNatural n.toNat := funext fun _ ↦ if_pos hpos
  rw [hwritten]
  exact announces_natural (by omega)

/-- A negative number is read from its complement. -/
theorem signedOf_complement {n : Int} (hlow : -(256 : Int) ^ width ≤ 2 * n) (hneg : n < 0) :
    signedOf width (n + (256 : Int) ^ width).toNat = n := by
  have hpower : ((256 ^ width : Nat) : Int) = (256 : Int) ^ width := by push_cast; rfl
  rw [signedOf, if_neg (by omega)]
  omega

theorem announces_signed (width : Nat) {marker : UInt8} {n : Int}
    (hmarker : ∀ input, Head.read (marker :: input) =
      Head.numbered width (fun n ↦ .signed (signedOf width n)) input)
    (hlow : -(256 : Int) ^ width ≤ 2 * n) (hneg : n < 0) :
    Announces (marked marker width (n + (256 : Int) ^ width).toNat) (.signed n) := by
  have hpower : ((256 ^ width : Nat) : Int) = (256 : Int) ^ width := by push_cast; rfl
  have hmarked := announces_marked_of_lt hmarker
    (by omega : (n + (256 : Int) ^ width).toNat < 256 ^ width)
  rwa [signedOf_complement hlow hneg] at hmarked

theorem announces_negative {n : Int} (hlow : -2 ^ 63 ≤ n) (hneg : n < 0) :
    Announces (emitInteger n) (.signed n) := by
  change Announces (fun out ↦ emitInteger n out) _
  simp only [emitInteger]
  split_ifs with hpos htiny
  · omega
  · exact announces_push fun input ↦ by interval_cases n <;> rfl
  · exact announces_signed 1 (fun _ ↦ rfl) (by omega) hneg
  · exact announces_signed 2 (fun _ ↦ rfl) (by omega) hneg
  · exact announces_signed 4 (fun _ ↦ rfl) (by omega) hneg
  · exact announces_signed 8 (fun _ ↦ rfl) (by omega) hneg

/-! A size is cut to its field before its form is chosen, so that every form has room for it. -/

theorem announces_textHead (size : Nat) :
    Announces (emitTextHead size) (.text (inField size)) := by
  have hfield := inField_lt size
  change Announces (fun out ↦ emitTextHead size out) _
  simp only [emitTextHead]
  generalize inField size = n at hfield ⊢
  split_ifs with hsmall
  · exact announces_push fun input ↦ by interval_cases n <;> rfl
  · exact announces_marked_of_lt (fun _ ↦ rfl) (by omega)
  · exact announces_marked_of_lt (fun _ ↦ rfl) (by omega)
  · exact announces_marked_of_lt (fun _ ↦ rfl) hfield

theorem announces_containerHead {base : Nat} {short long : UInt8} {make : Nat → Head}
    (hbase : ∀ n < 0x10, ∀ input,
      Head.read (UInt8.ofNat (base + n) :: input) = .ok (make n, input))
    (hshort : ∀ input, Head.read (short :: input) = Head.numbered 2 make input)
    (hlong : ∀ input, Head.read (long :: input) = Head.numbered 4 make input) (size : Nat) :
    Announces (emitContainerHead base short long size) (make (inField size)) := by
  have hfield := inField_lt size
  change Announces (fun out ↦ emitContainerHead base short long size out) _
  simp only [emitContainerHead]
  generalize inField size = n at hfield ⊢
  split_ifs with hsmall
  · exact announces_push (hbase n hsmall)
  · exact announces_marked_of_lt hshort (by omega)
  · exact announces_marked_of_lt hlong hfield

theorem announces_listHead (size : Nat) : Announces (emitListHead size) (.list (inField size)) :=
  announces_containerHead (fun n hn input ↦ by interval_cases n <;> rfl) (fun _ ↦ rfl)
    (fun _ ↦ rfl) size

theorem announces_mapHead (size : Nat) : Announces (emitMapHead size) (.map (inField size)) :=
  announces_containerHead (fun n hn input ↦ by interval_cases n <;> rfl) (fun _ ↦ rfl)
    (fun _ ↦ rfl) size

theorem announces_double (bits : UInt64) :
    Announces (marked 0xCB 8 bits.toNat) (.double bits) := by
  have hmarker : ∀ input, Head.read (0xCB :: input) =
      Head.numbered 8 (fun n ↦ .double (UInt64.ofNat n)) input := fun _ ↦ rfl
  have hmarked := announces_marked_of_lt hmarker bits.toNat_lt
  rwa [UInt64.ofNat_toNat] at hmarked

/-! ### Texts -/

theorem body_append (front rest : List UInt8) :
    body front.length (front ++ rest) = .ok (front, rest) := by
  simp only [body, List.take_left, List.drop_left, if_true]

theorem textBody_append (text : String) (rest : List UInt8) :
    textBody text.toUTF8.size (octets text.toUTF8 ++ rest) = .ok (text, rest) := by
  have hbody := body_append (octets text.toUTF8) rest
  rw [length_octets] at hbody
  simp only [textBody, hbody, toByteArray_octets, Utf8.decode_toUTF8, bind, Except.bind]

/-- A text is announced with the length that is left of its own, and its octets follow. -/
theorem exists_emitText (text : String) :
    ∃ head, Appends (emitText text) (head ++ octets text.toUTF8) ∧
      ∀ rest, Head.read (head ++ rest) = .ok (.text (inField text.toUTF8.size), rest) := by
  obtain ⟨head, happends, hread⟩ := announces_textHead text.toUTF8.size
  refine ⟨head, fun out ↦ ?_, hread⟩
  rw [emitText]
  exact happends.andThen (Appends.append text.toUTF8) out

/-- A text that is shorter than `2 ^ 32` octets is read wherever a text is. -/
theorem exists_textWhere {text : String} (htext : text.toUTF8.size < 2 ^ 32) :
    ∃ part, Appends (emitText text) part ∧
      (∀ expected rest, textWhere expected (part ++ rest) = .ok (text, rest)) ∧
      (∀ rest, firstKey (part ++ rest) = .ok (text, rest)) ∧
      ∀ n rest, value (n + 1) (part ++ rest) = .ok (.text text, rest) := by
  obtain ⟨head, happends, hread⟩ := exists_emitText text
  rw [inField_of_lt htext] at hread
  refine ⟨_, happends, fun expected rest ↦ ?_, fun rest ↦ ?_, fun n rest ↦ ?_⟩
  · simp only [textWhere, List.append_assoc, hread, textBody_append, bind, Except.bind]
  · simp only [firstKey, List.append_assoc, hread, textBody_append, bind, Except.bind]
  · simp only [value, List.append_assoc, hread, textBody_append, bind, Except.bind]

/-! ### Values -/

open Json (Value)
open Json.Value (depth itemsDepth fieldsDepth)

/-- What is written for a value is read back as the value, in a place that is deep enough for it,
and refused for its depth in any other. -/
def Stored (content : Value) : Prop :=
  ∃ part, Appends (emit content) part ∧ ∀ n rest, value n (part ++ rest) =
    if content.depth < n then .ok (content, rest) else .error .tooDeep

/-- A value without values in it is stored if it is read where nothing may be nested. -/
theorem stored_leaf {content : Value} {part : List UInt8} (hdepth : content.depth = 0)
    (happends : Appends (emit content) part)
    (hread : ∀ n rest, value (n + 1) (part ++ rest) = .ok (content, rest)) : Stored content := by
  refine ⟨part, happends, fun n rest ↦ ?_⟩
  cases n with
  | zero => rfl
  | succ n => rw [hread, hdepth, if_pos (Nat.zero_lt_succ n)]

theorem stored_number (number : Json.Number) : Stored (.number number) := by
  cases number with
  | integer n range =>
    have hnumber : Json.Number.integer? n = some (.integer n range) := dif_pos range
    rcases Int.lt_or_le n 0 with hneg | hpos
    · obtain ⟨part, happends, hread⟩ := announces_negative range.1 hneg
      refine stored_leaf rfl happends fun depth rest ↦ ?_
      simp only [value, hread, hnumber, Option.map_some, Option.getD_some, bind, Except.bind]
    · obtain ⟨part, happends, hread⟩ := announces_nonnegative hpos range.2
      refine stored_leaf rfl happends fun depth rest ↦ ?_
      simp only [value, hread, Int.toNat_of_nonneg hpos, hnumber, Option.map_some,
        Option.getD_some, bind, Except.bind]
  | double bits finite =>
    have hnumber : Json.Number.double? bits = some (.double bits finite) := dif_pos finite
    obtain ⟨part, happends, hread⟩ := announces_double bits
    refine stored_leaf rfl happends fun depth rest ↦ ?_
    simp only [value, hread, hnumber, Option.map_some, Option.getD_some, bind, Except.bind]

theorem exists_items {items : List Value} (h : ∀ item ∈ items, Stored item) :
    ∃ part, Appends (emitItems items) part ∧ ∀ n, 0 < n → ∀ sofar rest,
      MessagePack.items (value n) items.length sofar (part ++ rest) =
        if itemsDepth items < n then .ok (sofar.reverse ++ items, rest) else .error .tooDeep := by
  induction items with
  | nil =>
    refine ⟨[], Appends.nothing, fun n hn sofar rest ↦ ?_⟩
    rw [itemsDepth, if_pos hn, List.append_nil]
    rfl
  | cons item items ih =>
    obtain ⟨hitem, hitems⟩ := List.forall_mem_cons.mp h
    obtain ⟨front, hfront, hread⟩ := hitem
    obtain ⟨part, hpart, hreads⟩ := ih hitems
    refine ⟨front ++ part, hfront.andThen hpart, fun n hn sofar rest ↦ ?_⟩
    rw [List.append_assoc, List.length_cons, MessagePack.items, hread, itemsDepth]
    by_cases hdeep : item.depth < n
    · rw [if_pos hdeep]
      simp only [hreads n hn, Nat.max_lt, hdeep, true_and, List.reverse_cons, List.append_assoc,
        List.singleton_append]
    · simp only [Nat.max_lt, hdeep, false_and, if_false]

theorem exists_entries {fields : List (String × Value)}
    (hkeys : ∀ field ∈ fields, field.1.toUTF8.size < 2 ^ 32)
    (h : ∀ field ∈ fields, Stored field.2) :
    ∃ part, Appends (emitFields fields) part ∧ ∀ n, 0 < n → ∀ sofar rest,
      Entries.Sorted (sofar ++ fields) →
      entries (textWhere "a string") (value n) Entries.place fields.length sofar (part ++ rest) =
        if fieldsDepth fields < n then .ok (sofar ++ fields, rest) else .error .tooDeep := by
  induction fields with
  | nil =>
    refine ⟨[], Appends.nothing, fun n hn sofar rest _ ↦ ?_⟩
    rw [fieldsDepth, if_pos hn, List.append_nil]
    rfl
  | cons field fields ih =>
    obtain ⟨hkey, hothers⟩ := List.forall_mem_cons.mp hkeys
    obtain ⟨hfield, hfields⟩ := List.forall_mem_cons.mp h
    obtain ⟨name, content⟩ := field
    obtain ⟨key, hname, hreadKey, -⟩ := exists_textWhere hkey
    obtain ⟨front, hfront, hread⟩ := hfield
    obtain ⟨part, hpart, hreads⟩ := ih hothers hfields
    refine ⟨_, (hname.andThen hfront).andThen hpart, fun n hn sofar rest hsorted ↦ ?_⟩
    have hlast : ∀ entry ∈ sofar, entry.1 < name := fun entry hentry ↦
      (List.pairwise_append.mp hsorted).2.2 entry hentry _ List.mem_cons_self
    rw [List.append_cons] at hsorted
    simp only [List.append_assoc, List.length_cons, entries, hreadKey, hread, fieldsDepth]
    by_cases hdeep : content.depth < n
    · simp only [hdeep, if_true, Entries.place_of_forall_lt content hlast,
        hreads n hn _ rest hsorted, Nat.max_lt, true_and, List.append_assoc, List.singleton_append]
    · simp only [Nat.max_lt, hdeep, false_and, if_false]

/-- A container is stored if inside it the values are read where they are not too deep. -/
theorem stored_container {content : Value} {deepest : Nat} {part : List UInt8}
    (hdepth : content.depth = deepest + 1) (happends : Appends (emit content) part)
    (hshallow : ∀ rest, value 1 (part ++ rest) = .error .tooDeep)
    (hread : ∀ n rest, 0 < n → value (n + 1) (part ++ rest) =
      if deepest < n then .ok (content, rest) else .error .tooDeep) : Stored content := by
  refine ⟨part, happends, fun n rest ↦ ?_⟩
  cases n with
  | zero => rfl
  | succ n =>
    rw [hdepth]
    rcases Nat.eq_zero_or_pos n with rfl | hn
    · rw [hshallow, if_neg (by omega)]
    · rw [hread n rest hn]
      simp only [Nat.add_lt_add_iff_right]

theorem stored_list {items : List Value} (hlength : items.length < 2 ^ 32)
    (h : ∀ item ∈ items, Stored item) : Stored (.list items) := by
  obtain ⟨head, hhead, hreadHead⟩ := announces_listHead items.length
  rw [inField_of_lt hlength] at hreadHead
  obtain ⟨part, hpart, hread⟩ := exists_items h
  refine stored_container rfl (hhead.andThen hpart) (fun rest ↦ ?_) fun n rest hn ↦ ?_
  · simp only [List.append_assoc, value, hreadHead, if_true, bind, Except.bind]
  · simp only [List.append_assoc, value, hreadHead, hn.ne', if_false, hread n hn, bind,
      Except.bind]
    split_ifs <;> rfl

theorem stored_object_nil : Stored (.object []) := by
  obtain ⟨head, hhead, hread⟩ := announces_mapHead 0
  rw [inField_of_lt (by decide)] at hread
  refine stored_container rfl hhead (fun rest ↦ ?_) fun n rest hn ↦ ?_
  · simp only [value, hread, if_true, bind, Except.bind]
  · simp only [value, hread, hn.ne', if_false, fieldsDepth, hn, if_true, bind,
      Except.bind]

/-- The first key of an object is read as such, and its other fields as entries. -/
theorem stored_object_cons {name : String} {content : Value} {fields : List (String × Value)}
    (hlength : fields.length + 1 < 2 ^ 32) (hsorted : Entries.Sorted ((name, content) :: fields))
    (hname : name.toUTF8.size < 2 ^ 32) (hcontent : Stored content)
    (hkeys : ∀ field ∈ fields, field.1.toUTF8.size < 2 ^ 32)
    (h : ∀ field ∈ fields, Stored field.2) : Stored (.object ((name, content) :: fields)) := by
  obtain ⟨head, hhead, hreadHead⟩ := announces_mapHead (fields.length + 1)
  rw [inField_of_lt hlength] at hreadHead
  obtain ⟨key, hkey, -, hreadKey, -⟩ := exists_textWhere hname
  obtain ⟨front, hfront, hreadFront⟩ := hcontent
  obtain ⟨part, hpart, hread⟩ := exists_entries hkeys h
  refine stored_container rfl (hhead.andThen ((hkey.andThen hfront).andThen hpart))
    (fun rest ↦ ?_) fun n rest hn ↦ ?_
  · simp only [List.append_assoc, value, hreadHead, if_true, bind, Except.bind]
  · have hothers := hread n hn [(name, content)] rest hsorted
    simp only [List.append_assoc, value, hreadHead, hn.ne', if_false, hreadKey, hreadFront,
      fieldsDepth, Nat.max_lt, bind, Except.bind]
    by_cases hdeep : content.depth < n
    · simp only [hdeep, if_true, hothers, true_and]
      split_ifs <;> rfl
    · simp only [hdeep, if_false, false_and]

theorem stored_object {fields : List (String × Value)} (hlength : fields.length < 2 ^ 32)
    (hsorted : Entries.Sorted fields) (hkeys : ∀ field ∈ fields, field.1.toUTF8.size < 2 ^ 32)
    (h : ∀ field ∈ fields, Stored field.2) : Stored (.object fields) := by
  cases fields with
  | nil => exact stored_object_nil
  | cons field fields =>
    obtain ⟨hname, hkeys⟩ := List.forall_mem_cons.mp hkeys
    obtain ⟨hcontent, hfields⟩ := List.forall_mem_cons.mp h
    exact stored_object_cons hlength hsorted hname hcontent hkeys hfields

/-- A value whose objects are maps and whose parts are shorter than `2 ^ 32` is stored. -/
theorem stored_value (content : Value) (hordered : content.Ordered)
    (hwithin : content.Within (2 ^ 32)) : Stored content := by
  induction content using Value.inside_induction with
  | null => exact stored_leaf rfl (Appends.push 0xC0) fun _ _ ↦ rfl
  | flag content =>
    cases content with
    | false => exact stored_leaf rfl (Appends.push 0xC2) fun _ _ ↦ rfl
    | true => exact stored_leaf rfl (Appends.push 0xC3) fun _ _ ↦ rfl
  | number number => exact stored_number number
  | text text =>
    obtain ⟨part, happends, -, -, hread⟩ := exists_textWhere hwithin
    exact stored_leaf rfl happends hread
  | list items ih =>
    obtain ⟨-, hordered⟩ := Value.everywhere_list.mp hordered
    obtain ⟨hlength, hwithin⟩ := Value.everywhere_list.mp hwithin
    exact stored_list hlength fun item hitem ↦
      ih item hitem (hordered item hitem) (hwithin item hitem)
  | object fields ih =>
    obtain ⟨hsorted, hordered⟩ := Value.everywhere_object.mp hordered
    obtain ⟨⟨hlength, hkeys⟩, hwithin⟩ := Value.everywhere_object.mp hwithin
    exact stored_object hlength hsorted hkeys fun field hfield ↦
      ih field hfield (hordered field hfield) (hwithin field hfield)

/-- What is written for a value is read back as the value, whatever follows it, unless containers
are nested in it too deep to be read. -/
theorem readValue_writeValue {content : Value} (hordered : content.Ordered)
    (hwithin : content.Within (2 ^ 32)) (rest : List UInt8) :
    readValue (octets (writeValue content) ++ rest) =
      if content.depth < depthLimit then .ok content else .error .tooDeep := by
  obtain ⟨part, happends, hread⟩ := stored_value content hordered hwithin
  rw [readValue, writeValue, happends.octets_empty, hread]
  split <;> rfl

/-! ### Sizes -/

/-- What is written for a value is longer than everything in it. -/
def Spans (content : Value) : Prop :=
  ∃ part, Appends (emit content) part ∧ 0 < part.length ∧
    ∀ bound, part.length < bound → content.Within bound

theorem spans_number (number : Json.Number) : Spans (.number number) := by
  obtain ⟨part, happends, hread⟩ := stored_number number
  refine ⟨part, happends, List.length_pos_iff.mpr fun hnil ↦ ?_, fun _ _ ↦ trivial⟩
  subst hnil
  cases hread 1 []

theorem exists_length_items {items : List Value} (h : ∀ item ∈ items, Spans item) :
    ∃ part, Appends (emitItems items) part ∧ items.length ≤ part.length ∧
      ∀ bound, part.length < bound → ∀ item ∈ items, item.Within bound := by
  induction items with
  | nil => exact ⟨[], Appends.nothing, Nat.le_refl 0, fun _ _ _ ↦ nofun⟩
  | cons item items ih =>
    obtain ⟨hitem, hitems⟩ := List.forall_mem_cons.mp h
    obtain ⟨front, hfront, hpos, hwithin⟩ := hitem
    obtain ⟨part, hpart, hlength, hothers⟩ := ih hitems
    refine ⟨_, hfront.andThen hpart, ?_, fun bound hbound ↦ ?_⟩
    · rw [List.length_cons, List.length_append]
      omega
    · rw [List.length_append] at hbound
      exact List.forall_mem_cons.mpr ⟨hwithin bound (by omega), hothers bound (by omega)⟩

theorem exists_length_fields {fields : List (String × Value)}
    (h : ∀ field ∈ fields, Spans field.2) :
    ∃ part, Appends (emitFields fields) part ∧ fields.length ≤ part.length ∧
      ∀ bound, part.length < bound → (∀ field ∈ fields, field.1.toUTF8.size < bound) ∧
        ∀ field ∈ fields, field.2.Within bound := by
  induction fields with
  | nil => exact ⟨[], Appends.nothing, Nat.le_refl 0, fun _ _ ↦ ⟨nofun, nofun⟩⟩
  | cons field fields ih =>
    obtain ⟨hfield, hfields⟩ := List.forall_mem_cons.mp h
    obtain ⟨name, content⟩ := field
    obtain ⟨head, hname, -⟩ := exists_emitText name
    obtain ⟨front, hfront, hpos, hwithin⟩ := hfield
    obtain ⟨part, hpart, hlength, hothers⟩ := ih hfields
    refine ⟨_, (hname.andThen hfront).andThen hpart, ?_, fun bound hbound ↦ ?_⟩
    · simp only [List.length_cons, List.length_append]
      omega
    · simp only [List.length_append, length_octets] at hbound
      obtain ⟨hkeys, hvalues⟩ := hothers bound (by omega)
      have hkey : name.toUTF8.size < bound := by omega
      exact ⟨List.forall_mem_cons.mpr ⟨hkey, hkeys⟩,
        List.forall_mem_cons.mpr ⟨hwithin bound (by omega), hvalues⟩⟩

theorem spans_value (content : Value) : Spans content := by
  induction content using Value.inside_induction with
  | null => exact ⟨_, Appends.push 0xC0, Nat.one_pos, fun _ _ ↦ trivial⟩
  | flag content =>
    cases content with
    | false => exact ⟨_, Appends.push 0xC2, Nat.one_pos, fun _ _ ↦ trivial⟩
    | true => exact ⟨_, Appends.push 0xC3, Nat.one_pos, fun _ _ ↦ trivial⟩
  | number number => exact spans_number number
  | text text =>
    obtain ⟨head, happends, hread⟩ := exists_emitText text
    have hhead := length_pos_of_read hread
    refine ⟨_, happends, ?_, fun bound hbound ↦ ?_⟩
    · rw [List.length_append]
      omega
    · rw [List.length_append, length_octets] at hbound
      exact Nat.lt_of_le_of_lt (Nat.le_add_left _ _) hbound
  | list items ih =>
    obtain ⟨head, hhead, hread⟩ := announces_listHead items.length
    obtain ⟨part, hpart, hlength, hothers⟩ := exists_length_items ih
    have hpos := length_pos_of_read hread
    refine ⟨_, hhead.andThen hpart, ?_, fun bound hbound ↦ ?_⟩
    · rw [List.length_append]
      omega
    · rw [List.length_append] at hbound
      have hshort : items.length < bound := by omega
      exact Value.everywhere_list.mpr ⟨hshort, hothers bound (by omega)⟩
  | object fields ih =>
    obtain ⟨head, hhead, hread⟩ := announces_mapHead fields.length
    obtain ⟨part, hpart, hlength, hothers⟩ := exists_length_fields ih
    have hpos := length_pos_of_read hread
    refine ⟨_, hhead.andThen hpart, ?_, fun bound hbound ↦ ?_⟩
    · rw [List.length_append]
      omega
    · rw [List.length_append] at hbound
      have hshort : fields.length < bound := by omega
      obtain ⟨hkeys, hvalues⟩ := hothers bound (by omega)
      exact Value.everywhere_object.mpr ⟨⟨hshort, hkeys⟩, hvalues⟩

theorem within_of_size {content : Value} {bound : Nat}
    (hsize : (writeValue content).size < bound) : content.Within bound := by
  obtain ⟨part, happends, -, hwithin⟩ := spans_value content
  rw [← length_octets, writeValue, happends.octets_empty] at hsize
  exact hwithin bound hsize

end TypedPacket.MessagePack
