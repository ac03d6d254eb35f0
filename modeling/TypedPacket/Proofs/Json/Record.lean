import Mathlib.Algebra.Group.Defs
import TypedPacket.Json.Record
import TypedPacket.Proofs.Json.Container
import TypedPacket.Proofs.Schema

/-!
# Records in JSON

A record is written as an object of its fields. What is written for each is read back by the reader
of its type (`holds_field`). The reader of the record fills a draft, and puts the content of a field
into the place of its name, so that after the last field the draft is the whole record
(`exists_named`, `readAll_writeRecord`).
-/

set_option autoImplicit false
set_option relaxedAutoImplicit false

namespace TypedPacket.Json

/-- What is appended is read as the content, whatever ends it. -/
def Holds {α : Type} (emit : ByteArray → ByteArray) (read : Reader α) (content : α) : Prop :=
  ∃ part, Appends emit part ∧ Starts part ∧
    ∀ rest, Ends rest → read (part ++ rest) = .ok (content, rest)

theorem Fits.of_read {α : Type} {part : List UInt8} {read : Reader α} {content : α}
    (hstarts : Starts part)
    (hread : ∀ rest, Ends rest → read (part ++ rest) = .ok (content, rest)) :
    Fits part read False content :=
  ⟨hstarts, fun rest hrest ↦ Outcome.of_eq (hread rest hrest)⟩

/-! ### The readers of fields -/

theorem textWhere_quoted (expected content : String) (rest : List UInt8) :
    textWhere expected (0x22 :: (quoted content ++ rest)) = .ok (content, rest) :=
  text_quoted content rest

theorem starts_quoted (content : String) : Starts (0x22 :: quoted content) :=
  ⟨0x22, quoted content, rfl, rfl, by decide⟩

theorem holds_text (content : String) : Holds (emitText content) textField content :=
  ⟨_, appends_emitText content, starts_quoted content, fun rest _ ↦ textWhere_quoted _ content rest⟩

theorem holds_optionalText (found : Option String) :
    Holds (emitField .optionalText found) optionalText found := by
  cases found with
  | none =>
    exact ⟨_, Appends.append "null".toUTF8, ⟨0x6E, nullTail, rfl, rfl, by decide⟩, fun _ _ ↦ rfl⟩
  | some content =>
    refine ⟨_, appends_emitText content, starts_quoted content, fun rest _ ↦ ?_⟩
    have hread : optionalText (0x22 :: (quoted content ++ rest)) =
        (textField (0x22 :: (quoted content ++ rest))).bind fun found ↦
          .ok (some found.1, found.2) := rfl
    rw [List.cons_append, hread, textField, textWhere_quoted]
    rfl

theorem holds_choice {among : Choice} (hdistinct : among.variants.Nodup)
    (index : Fin among.variants.length) :
    Holds (emitText (among.variants.get index)) (choice among) index := by
  refine ⟨_, appends_emitText _, starts_quoted _, fun rest _ ↦ ?_⟩
  have hread : choice among (0x22 :: (quoted (among.variants.get index) ++ rest)) =
      variantName among (0x22 :: (quoted (among.variants.get index) ++ rest)) := rfl
  rw [List.cons_append, hread, variantName, textWhere_quoted]
  simp only [Choice.finIdxOf?_get hdistinct, bind, Except.bind]

/-- A digit starts a natural number. -/
theorem natural_digit {octet : UInt8} (h : isDigit octet = true) (bound : Nat) (expected : String)
    (rest : List UInt8) :
    natural bound expected (octet :: rest) = (do
      let (n, rest) ← number false (octet :: rest)
      match n with
      | .integer value _ =>
        if 0 ≤ value ∧ value < bound then .ok (value.toNat, rest)
        else misfit (.wrongValue (.integer value) expected) rest
      | .double bits _ => misfit (.wrongType (.double bits) expected) rest) := by
  obtain ⟨m, hlow, hhigh, rfl⟩ := exists_of_isDigit h
  interval_cases m <;> rfl

theorem fits_natural {n bound : Nat} (hn : n < bound) (hword : n < 2 ^ 64) (expected : String) :
    Fits (ascii (Nat.toDigits 10 n)) (natural bound expected) False n := by
  obtain ⟨octet, body, hdigits, hdigit⟩ := exists_toDigits_octet n
  have range : -2 ^ 63 ≤ (n : Int) ∧ (n : Int) < 2 ^ 64 := by omega
  have hbound : (0 : Int) ≤ n ∧ (n : Int) < bound := by omega
  refine .of_read (hdigits ▸ starts_digit hdigit body) fun rest hrest ↦ ?_
  have hread := number_digits false (fun h ↦ Bool.false_ne_true h.1) rfl range hrest
  have hnatural := natural_digit hdigit bound expected (body ++ rest)
  rw [hdigits] at hread ⊢
  rw [← List.cons_append, hread] at hnatural
  rw [hnatural]
  simp only [bind, Except.bind, Bool.false_eq_true, if_false, hbound, and_self, if_true,
    Int.toNat_natCast]

theorem holds_blob (bytes : ByteArray) : Holds (emitField .blob bytes) blob bytes := by
  have hitems : Appends (emitOctets (octets bytes))
      (joined (fun octet ↦ ascii (Nat.toDigits 10 octet.toNat)) (octets bytes)) := by
    refine appends_joined _ _ (fun _ ↦ rfl) (fun _ _ ↦ rfl) (fun _ _ _ _ ↦ rfl) fun octet _ ↦ ?_
    rw [← octets_toString]
    exact Appends.append _
  have hfits := fun octet (_ : octet ∈ octets bytes) ↦
    fits_natural octet.toNat_lt (Nat.lt_trans octet.toNat_lt (by decide)) "u8"
  refine ⟨_, ((Appends.push 0x5B).andThen hitems).andThen (Appends.push 0x5D),
    ⟨0x5B, _, rfl, rfl, by decide⟩, fun rest _ ↦ ?_⟩
  have hlist := (listOf_joined hfits rest).1 (by rintro ⟨_, _, h⟩; exact h)
  have hread : ∀ input, blob (0x5B :: input) =
      (listOf (natural 256 "u8") input).bind fun found ↦
        .ok ((found.1.map UInt8.ofNat).toByteArray, found.2) := fun _ ↦ rfl
  rw [List.append_assoc, List.singleton_append, List.cons_append, hread, List.singleton_append,
    hlist]
  simp only [Except.bind, toByteArray_map_octets]

/-- Writing texts behind their keys. -/
theorem appends_texts (entries : List (String × String)) :
    Appends (fun out ↦ emitFields (entries.map fun entry ↦ (entry.1, Value.text entry.2)) out)
      (joined (keyed (·.1) fun entry ↦ 0x22 :: quoted entry.2) entries) := by
  let text (entry : String × String) := (entry.1, Value.text entry.2)
  refine appends_joined
    (fun (entry : String × String) out ↦ emitText entry.2 ((emitText entry.1 out).push 0x3A))
    (fun (entries : List (String × String)) out ↦ emitFields (entries.map text) out)
    (fun out ↦ ?_) (fun entry out ↦ ?_) (fun entry next entries out ↦ ?_) fun entry _ ↦ ?_
  · rw [List.map_nil, emitFields]
  · rw [List.map_cons, List.map_nil, emitFields, Value.emit]
  · rw [List.map_cons, List.map_cons, emitFields, Value.emit]
  · exact appends_keyed entry.1 (appends_emitText entry.2)

theorem holds_textMap (map : TextMap) : Holds (emitField .textMap map) textMap map := by
  have hfits := fun entry (_ : entry ∈ map.entries) ↦
    Fits.of_read (starts_quoted entry.2) fun rest _ ↦ textWhere_quoted "a string" entry.2 rest
  refine ⟨_, ((Appends.push 0x7B).andThen (appends_texts map.entries)).andThen (Appends.push 0x7D),
    ⟨0x7B, _, rfl, rfl, by decide⟩, fun rest _ ↦ ?_⟩
  have hobject := (objectOf_joined (·.1) (fun key content map ↦ TextMap.insert map key content)
    hfits .empty rest).1 (fun ⟨_, _, h⟩ ↦ h)
  have hread : ∀ input, textMap (0x7B :: input) =
      objectOf textField (fun key content map ↦ map.insert key content) TextMap.empty input :=
    fun _ ↦ rfl
  rw [List.append_assoc, List.singleton_append, List.cons_append, hread, List.singleton_append]
  refine hobject.trans ?_
  rw [← TextMap.ofList, TextMap.ofList_entries]

/-- What is written for a field is read back by the reader of its type. -/
theorem holds_field {type : FieldType} (hdistinct : type.Distinct) (content : type.Val) :
    Holds (emitField type content) (field type) content := by
  cases type with
  | word width =>
    have hbound : content.toNat < 2 ^ width.bits := content.isLt
    have hfits := fits_natural hbound (Width.toNat_lt content) width.name
    have happends : Appends (emitField (.word width) content)
        (ascii (Nat.toDigits 10 content.toNat)) := by
      rw [← octets_toString]
      exact Appends.append _
    refine ⟨_, happends, hfits.starts, fun rest hrest ↦ ?_⟩
    have hread := (hfits.outcome rest hrest).1 not_false
    simp only [field, hread, BitVec.ofNat_toNat, BitVec.setWidth_eq, bind, Except.bind]
  | text => exact holds_text content
  | optionalText => exact holds_optionalText content
  | blob => exact holds_blob content
  | choice among => exact holds_choice hdistinct content
  | textMap => exact holds_textMap content

/-! ### Records -/

/-- The row that the draft `wrap` makes of a row for the fields that are left, with the fields
before them filled in. The names of the fields left are looked up among them. -/
structure Extends {left all : List Field} (wrap : Draft left → Draft all) (rest : Row left)
    (whole : Row all) : Prop where
  filled : wrap (Draft.filled rest) = Draft.filled whole
  assign : ∀ (again : Mismatch → Stop)
    (read : (type : FieldType) → Except Stop (type.Val × List UInt8)) (draft : Draft left),
    ∀ name ∈ left.map (·.name), Draft.assign again read name (wrap draft) =
      (Draft.assign again read name draft).map fun outcome ↦
        outcome.map fun (draft, after) ↦ (wrap draft, after)

theorem Extends.refl {all : List Field} (row : Row all) : Extends (fun draft ↦ draft) row row where
  filled := rfl
  assign again read draft name _ := by
    rcases Draft.assign again read name draft with _ | _ | _ <;> rfl

/-- With the first field that is left filled in. -/
theorem Extends.cons {f : Field} {left all : List Field} {wrap : Draft (f :: left) → Draft all}
    {content : f.type.Val} {rest : Row left} {whole : Row all}
    (h : Extends wrap ((content, rest) : Row (f :: left)) whole)
    (hname : f.name ∉ left.map (·.name)) :
    Extends (fun draft ↦ wrap (some content, draft)) rest whole where
  filled := h.filled
  assign again read draft name hmem := by
    have hother : f.name ≠ name := fun heq ↦ hname (heq ▸ hmem)
    rw [h.assign again read _ name (List.mem_cons_of_mem _ hmem), Draft.assign, if_neg hother]
    rcases Draft.assign again read name draft with _ | _ | _ <;> rfl

/-- The first field that is left is still open. -/
theorem Extends.assign_first {f : Field} {left all : List Field}
    {wrap : Draft (f :: left) → Draft all} {content : f.type.Val} {row : Row left} {whole : Row all}
    (h : Extends wrap ((content, row) : Row (f :: left)) whole)
    {read : (type : FieldType) → Except Stop (type.Val × List UInt8)} {after : List UInt8}
    (hread : read f.type = .ok (content, after)) (again : Mismatch → Stop) :
    (wrap (Draft.blank (f :: left))).assign again read f.name =
      some (.ok (wrap (some content, Draft.blank left), after)) := by
  rw [h.assign again read _ f.name (List.mem_cons_self ..), Draft.blank, Draft.assign, if_pos rfl,
    hread]
  rfl

/-- A turn at the name of a field that is still open. -/
theorem named_succ {all : List Field} {draft next : Draft all} {first : Bool}
    {input after rest : List UInt8} {name : String}
    (hkey : nextKey first input = .ok (true, quoted name ++ after))
    (hassign : ∀ again, draft.assign again (fun type ↦ do field type (← colon after)) name =
      some (.ok (next, rest))) (turns : Nat) :
    named (turns + 1) first draft input = named turns false next rest := by
  simp only [named, hkey, text_quoted, bind, Except.bind] at hassign ⊢
  simp only [hassign]

/-- Before the first key stands nothing, before any other a comma. -/
theorem exists_comma (first : Bool) :
    ∃ comma, Appends (fun out ↦ if first then out else out.push 0x2C) comma ∧
      (first = false → comma = [0x2C]) ∧
      ∀ input, nextKey first (comma ++ 0x22 :: input) = .ok (true, input) := by
  cases first with
  | true => exact ⟨[], Appends.nothing, nofun, fun _ ↦ rfl⟩
  | false => exact ⟨[0x2C], Appends.push 0x2C, fun _ ↦ rfl, fun _ ↦ rfl⟩

/-- The fields that are left are written one after another and read into the draft that holds those
before them, with a turn for each and one for the brace. -/
theorem exists_named {left all : List Field} {wrap : Draft left → Draft all} {row : Row left}
    {whole : Row all} (h : Extends wrap row whole) (hnames : (left.map (·.name)).Nodup)
    (htypes : ∀ f ∈ left, f.type.Distinct) (first : Bool) :
    ∃ part, Appends (emitRow first left row) part ∧ left.length ≤ part.length ∧
      (first = false → ∀ rest, Ends (part ++ 0x7D :: rest)) ∧
      ∀ turns rest, left.length < turns →
        named turns first (wrap (Draft.blank left)) (part ++ 0x7D :: rest) = .ok (whole, rest) := by
  induction left generalizing first with
  | nil =>
    refine ⟨[], Appends.nothing, Nat.le_refl 0, fun _ rest octet ↦ ?_, fun turns rest hturns ↦ ?_⟩
    · rintro ⟨⟩
      exact .inr (.inr rfl)
    · obtain ⟨turns, rfl⟩ : ∃ n, turns = n + 1 := ⟨turns - 1, by omega⟩
      have hkey : nextKey first (0x7D :: rest) = .ok (false, rest) := by cases first <;> rfl
      have hcomplete : (wrap (Draft.blank [])).complete = .ok whole := by
        rw [← Draft.complete_filled whole, ← h.filled]
      simp only [List.nil_append, named, hkey, hcomplete]
  | cons f left ih =>
    obtain ⟨content, row⟩ := row
    obtain ⟨hname, hnames⟩ := List.nodup_cons.mp hnames
    obtain ⟨htype, htypes⟩ := List.forall_mem_cons.mp htypes
    obtain ⟨value, hvalue, -, hread⟩ := holds_field htype content
    obtain ⟨tail, htail, hlength, hends, hreads⟩ := ih (h.cons hname) hnames htypes false
    obtain ⟨comma, hcomma, hfirst, hkey⟩ := exists_comma first
    refine ⟨_, (hcomma.andThen (appends_keyed f.name hvalue)).andThen htail, ?_, ?_, ?_⟩
    · simp only [List.length_append, List.length_cons]
      omega
    · intro hlater rest
      rw [hfirst hlater]
      rintro octet ⟨⟩
      exact .inl rfl
    · intro turns rest hturns
      obtain ⟨turns, rfl⟩ : ∃ n, turns = n + 1 := ⟨turns - 1, by omega⟩
      have hfield : (do field f.type (← colon (0x3A :: (value ++ (tail ++ 0x7D :: rest))))) =
          .ok (content, tail ++ 0x7D :: rest) := hread _ (hends rfl rest)
      simp only [List.append_assoc, List.cons_append]
      rw [named_succ (hkey _) (h.assign_first hfield)]
      exact hreads turns rest (Nat.lt_of_succ_lt_succ hturns)

/-- What is written for a record is read back as the record. -/
theorem readAll_writeRecord {schema : Schema} (hdistinct : schema.Distinct)
    (row : Row schema.fields) :
    readAll (record schema) (octets (writeRecord schema row)) = .ok row := by
  obtain ⟨part, hpart, hlength, -, hread⟩ :=
    exists_named (Extends.refl row) hdistinct.names hdistinct.types true
  have hwritten : octets (writeRecord schema row) = 0x7B :: (part ++ [0x7D]) := by
    have happends := ((Appends.push 0x7B).andThen hpart).andThen (Appends.push 0x7D)
    exact happends.octets_empty
  have hturns : schema.fields.length < (part ++ [0x7D]).length + 1 := by
    rw [List.length_append]
    omega
  have hrecord : record schema (0x7B :: (part ++ [0x7D])) =
      named ((part ++ [0x7D]).length + 1) true (Draft.blank schema.fields) (part ++ [0x7D]) := rfl
  rw [hwritten, readAll, hrecord, hread _ [] hturns]
  rfl

end TypedPacket.Json
