import Mathlib.Algebra.Group.Defs
import TypedPacket.MessagePack.Record
import TypedPacket.Proofs.MessagePack.Value
import TypedPacket.Proofs.Schema

/-!
# Records in MessagePack

A record is written as the list of its values. What is written for each field is read back by the
reader of its type (`holds_field`), so the record is read back from the list (`record_writeRecord`),
provided that its texts, octet strings and maps are shorter than `2 ^ 32`.
-/

set_option autoImplicit false
set_option relaxedAutoImplicit false

namespace TypedPacket.MessagePack

/-- What is appended is read as the content, whatever follows. -/
def Holds {α : Type} (emit : ByteArray → ByteArray) (read : Reader α) (content : α) : Prop :=
  ∃ part, Appends emit part ∧ ∀ rest, read (part ++ rest) = .ok (content, rest)

/-! ### The readers of fields -/

theorem holds_natural {n bound : Nat} (hn : n < bound) (hword : n < 2 ^ 64) (expected : String) :
    Holds (emitNatural n) (natural bound expected) n := by
  obtain ⟨part, happends, hread⟩ := announces_natural hword
  refine ⟨part, happends, fun rest ↦ ?_⟩
  have hwithin : (0 : Int) ≤ n ∧ (n : Int) < bound := by omega
  simp only [natural, hread, hwithin, and_self, if_true, Int.toNat_natCast, bind, Except.bind]

theorem holds_text {text : String} (htext : text.toUTF8.size < 2 ^ 32) :
    Holds (emitText text) textField text := by
  obtain ⟨part, happends, hread, -⟩ := exists_textWhere htext
  exact ⟨part, happends, hread _⟩

theorem holds_optionalText {found : Option String}
    (hfound : ∀ words ∈ found, words.toUTF8.size < 2 ^ 32) :
    Holds (emitField .optionalText found) optionalText found := by
  cases found with
  | none => exact ⟨_, Appends.push 0xC0, fun _ ↦ rfl⟩
  | some text =>
    obtain ⟨head, happends, hread⟩ := exists_emitText text
    rw [inField_of_lt (hfound text rfl)] at hread
    refine ⟨_, happends, fun rest ↦ ?_⟩
    simp only [optionalText, textField, textWhere, List.append_assoc, hread, textBody_append, bind,
      Except.bind]

/-- One after another, items are written and read. -/
theorem exists_items_map {α β : Type} {write : α → ByteArray → ByteArray} {item : Reader β}
    {content : α → β} {l : List α} (h : ∀ x ∈ l, Holds (write x) item (content x)) :
    ∃ part, Appends (fun out ↦ l.foldl (fun out x ↦ write x out) out) part ∧ ∀ sofar rest,
      items item l.length sofar (part ++ rest) = .ok (sofar.reverse ++ l.map content, rest) := by
  induction l with
  | nil =>
    refine ⟨[], Appends.nothing, fun sofar rest ↦ ?_⟩
    rw [List.map_nil, List.append_nil]
    rfl
  | cons x l ih =>
    obtain ⟨hx, hl⟩ := List.forall_mem_cons.mp h
    obtain ⟨front, hfront, hread⟩ := hx
    obtain ⟨part, hpart, hreads⟩ := ih hl
    refine ⟨front ++ part, hfront.andThen hpart, fun sofar rest ↦ ?_⟩
    rw [List.append_assoc, List.length_cons, items, hread]
    simp only [hreads, List.reverse_cons, List.append_assoc, List.singleton_append, List.map_cons]

theorem holds_blob {bytes : ByteArray} (hbytes : bytes.size < 2 ^ 32) :
    Holds (emitField .blob bytes) blob bytes := by
  obtain ⟨head, hhead, hreadHead⟩ := announces_listHead bytes.size
  rw [inField_of_lt hbytes] at hreadHead
  obtain ⟨part, hpart, hread⟩ := exists_items_map (l := octets bytes)
    (fun octet _ ↦ holds_natural octet.toNat_lt (Nat.lt_trans octet.toNat_lt (by decide)) "u8")
  refine ⟨_, hhead.andThen hpart, fun rest ↦ ?_⟩
  rw [length_octets] at hread
  simp only [blob, List.append_assoc, hreadHead, hread, List.reverse_nil, List.nil_append,
    toByteArray_map_octets, bind, Except.bind]

theorem holds_choice {among : Choice} (hdistinct : among.variants.Nodup)
    {index : Fin among.variants.length}
    (hname : (among.variants.get index).toUTF8.size < 2 ^ 32) :
    Holds (emitText (among.variants.get index)) (choice among) index := by
  obtain ⟨head, happends, hread⟩ := exists_emitText (among.variants.get index)
  rw [inField_of_lt hname] at hread
  refine ⟨_, happends, fun rest ↦ ?_⟩
  simp only [choice, variant, variantNamed, List.append_assoc, hread, textBody_append,
    Choice.finIdxOf?_get hdistinct, bind, Except.bind]

/-- Entries are written and read one after another, each put over an earlier one of its key. -/
theorem exists_entries_insert {l : List (String × String)}
    (h : ∀ entry ∈ l, entry.1.toUTF8.size < 2 ^ 32 ∧ entry.2.toUTF8.size < 2 ^ 32) :
    ∃ part, Appends
      (fun out ↦ l.foldl (fun out entry ↦ emitText entry.2 (emitText entry.1 out)) out) part ∧
      ∀ map rest, entries textField textField (fun key content map ↦ TextMap.insert map key content)
        l.length map (part ++ rest) =
          .ok (l.foldl (fun map entry ↦ map.insert entry.1 entry.2) map, rest) := by
  induction l with
  | nil => exact ⟨[], Appends.nothing, fun map rest ↦ rfl⟩
  | cons entry l ih =>
    obtain ⟨⟨hkey, hcontent⟩, hl⟩ := List.forall_mem_cons.mp h
    obtain ⟨key, hwriteKey, hreadKey⟩ := holds_text hkey
    obtain ⟨content, hwrite, hread⟩ := holds_text hcontent
    obtain ⟨part, hpart, hreads⟩ := ih hl
    refine ⟨_, (hwriteKey.andThen hwrite).andThen hpart, fun map rest ↦ ?_⟩
    simp only [List.append_assoc, List.length_cons, entries, hreadKey, hread, hreads,
      List.foldl_cons]

theorem holds_textMap {map : TextMap} (hwithin : FieldType.Within (2 ^ 32) .textMap map) :
    Holds (emitField .textMap map) textMap map := by
  obtain ⟨hlength, hentries⟩ := hwithin
  obtain ⟨head, hhead, hreadHead⟩ := announces_mapHead map.entries.length
  rw [inField_of_lt hlength] at hreadHead
  obtain ⟨part, hpart, hread⟩ := exists_entries_insert hentries
  refine ⟨_, hhead.andThen hpart, fun rest ↦ ?_⟩
  simp only [textMap, List.append_assoc, hreadHead, hread, bind, Except.bind]
  rw [← TextMap.ofList, TextMap.ofList_entries]

/-- What is written for a field is read back by the reader of its type. -/
theorem holds_field {type : FieldType} (hdistinct : type.Distinct) {content : type.Val}
    (hwithin : type.Within (2 ^ 32) content) :
    Holds (emitField type content) (field type) content := by
  cases type with
  | word width =>
    have hbound : content.toNat < 2 ^ width.bits := content.isLt
    obtain ⟨part, happends, hread⟩ := holds_natural hbound (Width.toNat_lt content) width.name
    refine ⟨part, happends, fun rest ↦ ?_⟩
    simp only [field, hread, BitVec.ofNat_toNat, BitVec.setWidth_eq, bind, Except.bind]
  | text => exact holds_text hwithin
  | optionalText => exact holds_optionalText hwithin
  | blob => exact holds_blob hwithin
  | choice among => exact holds_choice hdistinct hwithin
  | textMap => exact holds_textMap hwithin

/-! ### Records -/

theorem holds_row {fields : List Field} (htypes : ∀ f ∈ fields, f.type.Distinct)
    {row : Row fields} (hwithin : row.Within (2 ^ 32)) (expected : String) (index : Nat) :
    Holds (emitRow fields row) (listed expected index fields.length fields) row := by
  induction fields generalizing index with
  | nil => exact ⟨[], Appends.nothing, fun rest ↦ rfl⟩
  | cons f fields ih =>
    obtain ⟨htype, htypes⟩ := List.forall_mem_cons.mp htypes
    obtain ⟨content, row⟩ := row
    obtain ⟨hcontent, hrow⟩ := hwithin
    obtain ⟨front, hfront, hread⟩ := holds_field htype hcontent
    obtain ⟨part, hpart, hreads⟩ := ih htypes hrow (index + 1)
    refine ⟨_, hfront.andThen hpart, fun rest ↦ ?_⟩
    simp only [List.append_assoc, List.length_cons, listed, hread, hreads, bind, Except.bind]

/-- What is written for a record is read back as the record, whatever follows it. -/
theorem record_writeRecord {schema : Schema} (hcount : schema.fields.length < 2 ^ 32)
    (htypes : ∀ f ∈ schema.fields, f.type.Distinct) {row : Row schema.fields}
    (hwithin : row.Within (2 ^ 32)) (rest : List UInt8) :
    record schema (octets (writeRecord schema row) ++ rest) = .ok (row, rest) := by
  obtain ⟨head, hhead, hreadHead⟩ := announces_listHead schema.fields.length
  rw [inField_of_lt hcount] at hreadHead
  obtain ⟨part, hpart, hread⟩ := holds_row htypes hwithin schema.lengthExpectation 0
  have hwritten : octets (writeRecord schema row) = head ++ part :=
    (hhead.andThen hpart).octets_empty
  simp only [hwritten, List.append_assoc, record, hreadHead, hread, bind, Except.bind]

end TypedPacket.MessagePack
