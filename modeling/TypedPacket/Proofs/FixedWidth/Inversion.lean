import TypedPacket.Proofs.FixedWidth
import TypedPacket.Proofs.Result

/-!
# What octets in the fixed-width layout are

A reader of the fixed-width layout leaves no choice to a writer but in maps: words, texts, octet
strings and choices are read only from the octets they are written as. The entries of a map may
stand in any order, and a key may come again; what is read is the map that they leave. So a value is
spelled by the octets it is written as and, if it is a map, by all lists of entries that leave it
(`FixedWidth.Spells`). A reader takes such octets from the front (`Spells.read_append`) and no
others (`spells_of_read`).

Of all spellings of a value, what is written of it is a shortest one (`Spells.size_le`); entries
that leave a map take more octets than it exactly if a key comes again
(`entriesSize_ofList_eq_iff`). Octets hold entries in one way (`entries_inj`).
-/

set_option autoImplicit false
set_option relaxedAutoImplicit false

namespace TypedPacket.FixedWidth

/-! ### Numbers and texts -/

theorem split?_eq_some_iff {n : Nat} {bytes front rest : ByteArray} :
    split? n bytes = some (front, rest) ↔ front.size = n ∧ bytes = front ++ rest := by
  constructor
  · intro h
    unfold split? at h
    split at h
    · rename_i hfits
      simp only [Option.some.injEq, Prod.mk.injEq] at h
      obtain ⟨rfl, rfl⟩ := h
      refine ⟨?_, ?_⟩
      · rw [ByteArray.size_extract]
        omega
      · rw [← ByteArray.extract_eq_extract_append_extract _ (Nat.zero_le _) hfits,
          ByteArray.extract_zero_size]
    · cases h
  · rintro ⟨hfront, rfl⟩
    exact split?_append hfront rest

/-- A number is read only from the octets it is written as. -/
theorem number_eq_ok_iff {width n : Nat} {bytes rest : ByteArray} :
    number width bytes = .ok (n, rest) ↔
      n < 256 ^ width ∧ bytes = (littleEndian width n).toByteArray ++ rest := by
  constructor
  · intro h
    unfold number at h
    split at h
    · cases h
    · rename_i front behind hsplit
      simp only [Except.ok.injEq, Prod.mk.injEq] at h
      obtain ⟨rfl, rfl⟩ := h
      obtain ⟨rfl, rfl⟩ := split?_eq_some_iff.mp hsplit
      have hfront : (littleEndian front.size (ofLittleEndian (octets front))).toByteArray =
          front := by
        apply octets_inj.mp
        rw [octets_toByteArray, ← length_octets, littleEndian_ofLittleEndian]
      refine ⟨?_, by rw [hfront]⟩
      rw [← length_octets]
      exact ofLittleEndian_lt _
  · rintro ⟨hn, rfl⟩
    exact number_littleEndian hn rest

/-- What a reader takes behind a number comes behind the octets of the number. -/
theorem number_bind_eq_ok_iff {α : Type} {width : Nat} {bytes : ByteArray}
    {next : Nat × ByteArray → Except Fault α} {a : α} :
    (number width bytes >>= next) = .ok a ↔ ∃ n rest, n < 256 ^ width ∧
      bytes = (littleEndian width n).toByteArray ++ rest ∧ next (n, rest) = .ok a := by
  rw [bind_eq_ok_iff]
  constructor
  · rintro ⟨⟨n, rest⟩, hnumber, hnext⟩
    obtain ⟨hn, hbytes⟩ := number_eq_ok_iff.mp hnumber
    exact ⟨n, rest, hn, hbytes, hnext⟩
  · rintro ⟨n, rest, hn, hbytes, hnext⟩
    exact ⟨(n, rest), number_eq_ok_iff.mpr ⟨hn, hbytes⟩, hnext⟩

/-- A text is read only from the octets it is written as. -/
theorem eq_of_readText {text : String} {bytes rest : ByteArray}
    (h : readText bytes = .ok (text, rest)) : bytes = writeText text ++ rest := by
  unfold readText at h
  obtain ⟨n, behind, -, rfl, hnext⟩ := number_bind_eq_ok_iff.mp h
  dsimp only at hnext
  split at hnext
  · cases hnext
  · rename_i front others hsplit
    obtain ⟨rfl, rfl⟩ := split?_eq_some_iff.mp hsplit
    split at hnext
    · rename_i found hdecode
      simp only [Except.ok.injEq, Prod.mk.injEq] at hnext
      obtain ⟨rfl, rfl⟩ := hnext
      obtain rfl := Utf8.decode_eq_ok_iff.mp hdecode
      rw [writeText, length, ByteArray.append_assoc]
    · cases hnext

/-- Entries that are read into a map are those that stand there, one after another. -/
theorem exists_of_readEntries {count : Nat} {map filled : TextMap} {bytes rest : ByteArray}
    (h : readEntries count map bytes = .ok (filled, rest)) :
    ∃ entries, entries.length = count ∧ bytes = writeEntries entries ++ rest ∧
      filled = entries.foldl (fun map entry ↦ map.insert entry.1 entry.2) map := by
  induction count generalizing map bytes with
  | zero =>
    simp only [readEntries, Except.ok.injEq, Prod.mk.injEq] at h
    obtain ⟨rfl, rfl⟩ := h
    exact ⟨[], rfl, ByteArray.empty_append.symm, rfl⟩
  | succ count ih =>
    unfold readEntries at h
    obtain ⟨⟨key, behind⟩, hkey, h⟩ := bind_eq_ok_iff.mp h
    obtain ⟨⟨value, others⟩, hvalue, h⟩ := bind_eq_ok_iff.mp h
    obtain ⟨entries, rfl, rfl, rfl⟩ := ih h
    refine ⟨(key, value) :: entries, rfl, ?_, rfl⟩
    rw [eq_of_readText hkey, eq_of_readText hvalue, writeEntries_cons, ByteArray.append_assoc,
      ByteArray.append_assoc]

/-! ### Values -/

theorem eq_of_readWord {width : Width} {value : (FieldType.word width).Val}
    {bytes rest : ByteArray} (h : read (.word width) bytes = .ok (value, rest)) :
    bytes = write (.word width) value ++ rest := by
  unfold read at h
  obtain ⟨n, behind, hn, rfl, hnext⟩ := number_bind_eq_ok_iff.mp h
  simp only [Except.ok.injEq, Prod.mk.injEq] at hnext
  obtain ⟨rfl, rfl⟩ := hnext
  have hvalue : (BitVec.ofNat width.bits n).toNat = n := by
    rw [BitVec.toNat_ofNat]
    apply Nat.mod_eq_of_lt
    cases width <;> simpa [Width.size, Width.bits] using hn
  rw [write, hvalue]

theorem eq_of_readOptionalText {value : FieldType.optionalText.Val} {bytes rest : ByteArray}
    (h : read .optionalText bytes = .ok (value, rest)) :
    bytes = write .optionalText value ++ rest := by
  unfold read at h
  obtain ⟨tag, behind, -, rfl, hnext⟩ := number_bind_eq_ok_iff.mp h
  dsimp only at hnext
  split at hnext
  · simp only [Except.ok.injEq, Prod.mk.injEq] at hnext
    obtain ⟨rfl, rfl⟩ := hnext
    rfl
  · obtain ⟨⟨text, others⟩, htext, hnext⟩ := bind_eq_ok_iff.mp hnext
    simp only [Except.ok.injEq, Prod.mk.injEq] at hnext
    obtain ⟨rfl, rfl⟩ := hnext
    rw [eq_of_readText htext, write, ByteArray.append_assoc]
    rfl
  · cases hnext

theorem eq_of_readBlob {value : FieldType.blob.Val} {bytes rest : ByteArray}
    (h : read .blob bytes = .ok (value, rest)) : bytes = write .blob value ++ rest := by
  unfold read at h
  obtain ⟨n, behind, -, rfl, hnext⟩ := number_bind_eq_ok_iff.mp h
  dsimp only at hnext
  split at hnext
  · cases hnext
  · rename_i front others hsplit
    obtain ⟨rfl, rfl⟩ := split?_eq_some_iff.mp hsplit
    simp only [Except.ok.injEq, Prod.mk.injEq] at hnext
    obtain ⟨rfl, rfl⟩ := hnext
    rw [write, length, ByteArray.append_assoc]

theorem eq_of_readChoice {among : Choice} {value : (FieldType.choice among).Val}
    {bytes rest : ByteArray} (h : read (.choice among) bytes = .ok (value, rest)) :
    bytes = write (.choice among) value ++ rest := by
  unfold read at h
  obtain ⟨index, behind, -, rfl, hnext⟩ := number_bind_eq_ok_iff.mp h
  dsimp only at hnext
  split at hnext
  · simp only [Except.ok.injEq, Prod.mk.injEq] at hnext
    obtain ⟨rfl, rfl⟩ := hnext
    rfl
  · cases hnext

/-- A map is read only from its number of entries and as many entries that leave it. -/
theorem exists_of_readTextMap {map : TextMap} {bytes rest : ByteArray}
    (h : read .textMap bytes = .ok (map, rest)) :
    ∃ entries, map = TextMap.ofList entries ∧
      bytes = length entries.length ++ writeEntries entries ++ rest := by
  unfold read at h
  obtain ⟨count, behind, -, rfl, hnext⟩ := number_bind_eq_ok_iff.mp h
  obtain ⟨entries, rfl, rfl, rfl⟩ := exists_of_readEntries hnext
  refine ⟨entries, rfl, ?_⟩
  rw [length, ByteArray.append_assoc]

/-- Octets of a value: those that it is written as and, for a map, any entries that leave it. -/
inductive Spells : (type : FieldType) → type.Val → ByteArray → Prop
  | written (type : FieldType) (value : type.Val) : Spells type value (write type value)
  | entries (l : List (String × String)) :
    Spells .textMap (TextMap.ofList l) (length l.length ++ writeEntries l)

theorem spells_of_read {type : FieldType} {value : type.Val} {bytes rest : ByteArray}
    (h : read type bytes = .ok (value, rest)) :
    ∃ front, Spells type value front ∧ bytes = front ++ rest := by
  cases type with
  | word width => exact ⟨_, .written _ value, eq_of_readWord h⟩
  | text => exact ⟨_, .written .text value, eq_of_readText h⟩
  | optionalText => exact ⟨_, .written _ value, eq_of_readOptionalText h⟩
  | blob => exact ⟨_, .written _ value, eq_of_readBlob h⟩
  | choice among => exact ⟨_, .written _ value, eq_of_readChoice h⟩
  | textMap =>
    obtain ⟨entries, rfl, hbytes⟩ := exists_of_readTextMap h
    exact ⟨_, .entries entries, hbytes⟩

/-- Entries are read as the map that they leave. -/
theorem read_entries {entries : List (String × String)} (hentries : entriesSize entries < 2 ^ 64)
    (rest : ByteArray) :
    read .textMap (length entries.length ++ writeEntries entries ++ rest) =
      .ok (TextMap.ofList entries, rest) := by
  have hlength : entries.length < 2 ^ 64 :=
    Nat.lt_of_le_of_lt (length_le_entriesSize entries) hentries
  simp only [read, ByteArray.append_assoc, number_length hlength,
    readEntries_writeEntries hentries, bind, Except.bind]
  rfl

theorem Spells.read_append {type : FieldType} {value : type.Val} {front : ByteArray}
    (h : Spells type value front) (hindex : Indexable type) (hsize : front.size < 2 ^ 64)
    (rest : ByteArray) : read type (front ++ rest) = .ok (value, rest) := by
  cases h with
  | written =>
    rw [size_write] at hsize
    exact read_write hindex hsize rest
  | entries l =>
    rw [ByteArray.size_append, size_writeEntries] at hsize
    exact read_entries (by omega) rest

/-- Maps can be spelled in more than one way, by entries in another order or with a key that comes
again; other values cannot. -/
theorem Spells.eq_write {type : FieldType} {value : type.Val} {bytes : ByteArray}
    (h : Spells type value bytes) (htype : type ≠ .textMap) : bytes = write type value := by
  cases h with
  | written => rfl
  | entries l => exact absurd rfl htype

theorem spells_textMap_iff {map : TextMap} {bytes : ByteArray} :
    Spells .textMap map bytes ↔ ∃ entries, TextMap.ofList entries = map ∧
      bytes = length entries.length ++ writeEntries entries := by
  constructor
  · intro h
    cases h with
    | written => exact ⟨map.entries, TextMap.ofList_entries map, rfl⟩
    | entries l => exact ⟨l, rfl, rfl⟩
  · rintro ⟨entries, rfl, rfl⟩
    exact .entries entries

/-! ### Sizes -/

/-- An entry makes the entries of a map longer by no more than its own size. -/
theorem entriesSize_place_le (key value : String) (entries : List (String × String)) :
    entriesSize (Entries.place key value entries) ≤
      textSize key + textSize value + entriesSize entries := by
  induction entries with
  | nil => exact Nat.le_refl _
  | cons entry entries ih =>
    rw [Entries.place]
    split
    · exact Nat.le_refl _
    · split
      · simp only [entriesSize]
        omega
      · rename_i hbefore hafter
        rw [Entries.eq_of_not_lt hbefore hafter]
        simp only [entriesSize]
        omega

/-- Entries make a map longer by no more than their own size. -/
theorem entriesSize_foldl_le (entries : List (String × String)) (map : TextMap) :
    entriesSize (entries.foldl (fun map entry ↦ map.insert entry.1 entry.2) map).entries ≤
      entriesSize map.entries + entriesSize entries := by
  induction entries generalizing map with
  | nil => exact Nat.le_refl _
  | cons entry entries ih =>
    have hrest := ih (map.insert entry.1 entry.2)
    have hplaced := entriesSize_place_le entry.1 entry.2 map.entries
    rw [List.foldl_cons, entriesSize_cons]
    simp only [TextMap.insert] at hrest ⊢
    omega

theorem entriesSize_ofList_le (entries : List (String × String)) :
    entriesSize (TextMap.ofList entries).entries ≤ entriesSize entries := by
  have hfold := entriesSize_foldl_le entries .empty
  rwa [show entriesSize TextMap.empty.entries = 0 from rfl, Nat.zero_add] at hfold

/-! ### Repeated keys -/

/-- What is written of a value is a shortest spelling of it. -/
theorem Spells.size_le {type : FieldType} {value : type.Val} {bytes : ByteArray}
    (h : Spells type value bytes) : size type value ≤ bytes.size := by
  cases h with
  | written => exact Nat.le_of_eq (size_write type value).symm
  | entries l =>
    have hentries := entriesSize_ofList_le l
    rw [ByteArray.size_append, size_length, size_writeEntries, size]
    omega

/-! ### Rows -/

/-- Octets of a row: those of its values, one after another. -/
def SpellsRow : {fields : List Field} → Row fields → ByteArray → Prop
  | [], _, bytes => bytes = .empty
  | field :: _, (value, others), bytes =>
    ∃ front behind, Spells field.type value front ∧ SpellsRow others behind ∧
      bytes = front ++ behind

/-- A row without maps is spelled in one way. -/
theorem SpellsRow.eq_writeRow {fields : List Field} {row : Row fields} {bytes : ByteArray}
    (h : SpellsRow row bytes) (hfields : ∀ field ∈ fields, field.type ≠ .textMap) :
    bytes = writeRow row := by
  induction fields generalizing bytes with
  | nil => exact h
  | cons field fields ih =>
    obtain ⟨value, others⟩ := row
    obtain ⟨front, behind, hfront, hbehind, rfl⟩ := h
    obtain ⟨hfirst, hrest⟩ := List.forall_mem_cons.mp hfields
    rw [writeRow, hfront.eq_write hfirst, ih hbehind hrest]

theorem spellsRow_of_readRow {fields : List Field} {row : Row fields} {bytes rest : ByteArray}
    (h : readRow fields bytes = .ok (row, rest)) :
    ∃ front, SpellsRow row front ∧ bytes = front ++ rest := by
  induction fields generalizing bytes with
  | nil =>
    simp only [readRow, Except.ok.injEq, Prod.mk.injEq] at h
    obtain ⟨-, rfl⟩ := h
    exact ⟨.empty, rfl, ByteArray.empty_append.symm⟩
  | cons field fields ih =>
    unfold readRow at h
    obtain ⟨⟨value, behind⟩, hvalue, h⟩ := bind_eq_ok_iff.mp h
    obtain ⟨⟨others, left⟩, hothers, h⟩ := bind_eq_ok_iff.mp h
    simp only [Except.ok.injEq, Prod.mk.injEq] at h
    obtain ⟨rfl, rfl⟩ := h
    obtain ⟨front, hfront, rfl⟩ := spells_of_read hvalue
    obtain ⟨rear, hrear, rfl⟩ := ih hothers
    exact ⟨front ++ rear, ⟨front, rear, hfront, hrear, rfl⟩, ByteArray.append_assoc.symm⟩

theorem SpellsRow.readRow_append {fields : List Field} {row : Row fields} {front : ByteArray}
    (h : SpellsRow row front) (hindex : ∀ field ∈ fields, Indexable field.type)
    (hsize : front.size < 2 ^ 64) (rest : ByteArray) :
    readRow fields (front ++ rest) = .ok (row, rest) := by
  induction fields generalizing front with
  | nil =>
    obtain rfl : front = .empty := h
    simp only [readRow, ByteArray.empty_append]
  | cons field fields ih =>
    obtain ⟨value, others⟩ := row
    obtain ⟨first, behind, hfirst, hbehind, rfl⟩ := h
    rw [ByteArray.size_append] at hsize
    have hvalue := hfirst.read_append (hindex field List.mem_cons_self) (by omega)
      (behind ++ rest)
    have hothers := ih hbehind
      (fun other hother ↦ hindex other (List.mem_cons_of_mem _ hother)) (by omega)
    simp only [readRow, ByteArray.append_assoc, hvalue, hothers, bind, Except.bind]

/-- What is written of a row is a shortest spelling of it. -/
theorem SpellsRow.size_le {fields : List Field} {row : Row fields} {bytes : ByteArray}
    (h : SpellsRow row bytes) : rowSize row ≤ bytes.size := by
  induction fields generalizing bytes with
  | nil => exact Nat.zero_le _
  | cons field fields ih =>
    obtain ⟨value, others⟩ := row
    obtain ⟨front, behind, hfront, hbehind, rfl⟩ := h
    have hvalue := hfront.size_le
    have hothers := ih hbehind
    rw [ByteArray.size_append]
    simp only [rowSize]
    omega

/-! ### Entries are told by their octets -/

theorem writeText_append_inj {a b : String} (ha : textSize a < 2 ^ 64) (hb : textSize b < 2 ^ 64)
    {x y : ByteArray} (h : writeText a ++ x = writeText b ++ y) : a = b ∧ x = y := by
  have hread := congrArg readText h
  rw [readText_writeText ha, readText_writeText hb] at hread
  exact Prod.mk.inj (Except.ok.inj hread)

theorem writeEntries_inj {entries others : List (String × String)}
    (hlength : entries.length = others.length) (hentries : entriesSize entries < 2 ^ 64)
    (hothers : entriesSize others < 2 ^ 64) (h : writeEntries entries = writeEntries others) :
    entries = others := by
  induction entries generalizing others with
  | nil => exact (List.length_eq_zero_iff.mp hlength.symm).symm
  | cons entry entries ih =>
    cases others with
    | nil => cases hlength
    | cons other others =>
      rw [entriesSize_cons] at hentries hothers
      rw [writeEntries_cons, writeEntries_cons] at h
      obtain ⟨hkey, hbehind⟩ := writeText_append_inj (by omega) (by omega) h
      obtain ⟨hvalue, hrest⟩ := writeText_append_inj (by omega) (by omega) hbehind
      rw [Prod.ext hkey hvalue, ih (Nat.succ.inj hlength) (by omega) (by omega) hrest]

/-- Octets hold the entries of a map in one way. -/
theorem entries_inj {entries others : List (String × String)}
    (hentries : entriesSize entries < 2 ^ 64) (hothers : entriesSize others < 2 ^ 64)
    (h : length entries.length ++ writeEntries entries =
      length others.length ++ writeEntries others) : entries = others := by
  have hread := congrArg (number 8) h
  rw [number_length (Nat.lt_of_le_of_lt (length_le_entriesSize _) hentries),
    number_length (Nat.lt_of_le_of_lt (length_le_entriesSize _) hothers)] at hread
  obtain ⟨hlength, hwritten⟩ := Prod.mk.inj (Except.ok.inj hread)
  exact writeEntries_inj hlength hentries hothers hwritten

end TypedPacket.FixedWidth
