import TypedPacket.FixedWidth

/-!
# The fixed-width layout reads back what it writes

A value behind which anything may follow is read back with exactly what follows left over
(`read_write`), and so is a row of values (`readRow_writeRow`). Lengths and counts stand in eight
octets, so both ask that the value takes fewer than `2 ^ 64` octets, and the index of a variant
stands in four, so a choice may not have more than `2 ^ 32` variants (`Indexable`).
-/

set_option autoImplicit false
set_option relaxedAutoImplicit false

namespace TypedPacket.FixedWidth

/-! ### Numbers and texts -/

theorem split?_append {n : Nat} {front : ByteArray} (hfront : front.size = n) (rest : ByteArray) :
    split? n (front ++ rest) = some (front, rest) := by
  subst hfront
  have hfits : front.size ≤ (front ++ rest).size := by
    rw [ByteArray.size_append]
    omega
  rw [split?, if_pos hfits, ByteArray.extract_append_eq_left rfl,
    ByteArray.extract_append_eq_right rfl ByteArray.size_append]

/-- A number below `256 ^ width` is read back from its `width` octets. -/
theorem number_littleEndian {width n : Nat} (hn : n < 256 ^ width) (rest : ByteArray) :
    number width ((littleEndian width n).toByteArray ++ rest) = .ok (n, rest) := by
  have hwidth : (littleEndian width n).toByteArray.size = width := by
    rw [List.size_toByteArray, length_littleEndian]
  simp only [number, split?_append hwidth, octets_toByteArray, ofLittleEndian_littleEndian,
    Nat.mod_eq_of_lt hn]

theorem number_length {n : Nat} (hn : n < 2 ^ 64) (rest : ByteArray) :
    number 8 (length n ++ rest) = .ok (n, rest) :=
  number_littleEndian (by omega) rest

theorem readText_writeText {text : String} (htext : textSize text < 2 ^ 64) (rest : ByteArray) :
    readText (writeText text ++ rest) = .ok (text, rest) := by
  have hsize : text.toUTF8.size < 2 ^ 64 := by
    unfold textSize at htext
    omega
  simp only [readText, writeText, ByteArray.append_assoc, number_length hsize, split?_append,
    Utf8.decode_toUTF8, bind, Except.bind]

/-! ### Maps -/

/-- Writing appends to what is already written. -/
theorem foldl_writeText (entries : List (String × String)) (before : ByteArray) :
    entries.foldl (fun written entry ↦ written ++ writeText entry.1 ++ writeText entry.2) before =
      before ++ writeEntries entries := by
  induction entries generalizing before with
  | nil => exact ByteArray.append_empty.symm
  | cons entry rest ih =>
    rw [writeEntries, List.foldl_cons, List.foldl_cons, ih, ih]
    simp only [ByteArray.empty_append, ByteArray.append_assoc]

theorem writeEntries_cons (entry : String × String) (entries : List (String × String)) :
    writeEntries (entry :: entries) =
      writeText entry.1 ++ (writeText entry.2 ++ writeEntries entries) := by
  rw [writeEntries, List.foldl_cons, foldl_writeText]
  simp only [ByteArray.empty_append, ByteArray.append_assoc]

theorem entriesSize_cons (entry : String × String) (entries : List (String × String)) :
    entriesSize (entry :: entries) =
      textSize entry.1 + textSize entry.2 + entriesSize entries := rfl

/-- Entries are read back in order, each over an earlier one of its key. -/
theorem readEntries_writeEntries {entries : List (String × String)}
    (hentries : entriesSize entries < 2 ^ 64) (map : TextMap) (rest : ByteArray) :
    readEntries entries.length map (writeEntries entries ++ rest) =
      .ok (entries.foldl (fun map entry ↦ map.insert entry.1 entry.2) map, rest) := by
  induction entries generalizing map with
  | nil =>
    simp only [List.length_nil, readEntries, List.foldl_nil, writeEntries, ByteArray.empty_append]
  | cons entry entries ih =>
    rw [entriesSize_cons] at hentries
    have hkey : textSize entry.1 < 2 ^ 64 := by omega
    have hvalue : textSize entry.2 < 2 ^ 64 := by omega
    have hothers : entriesSize entries < 2 ^ 64 := by omega
    simp only [List.length_cons, readEntries, writeEntries_cons, ByteArray.append_assoc,
      readText_writeText hkey, readText_writeText hvalue, ih hothers, List.foldl_cons, bind,
      Except.bind]

theorem length_le_entriesSize (entries : List (String × String)) :
    entries.length ≤ entriesSize entries := by
  induction entries with
  | nil => exact Nat.le_refl 0
  | cons entry entries ih =>
    rw [entriesSize_cons, List.length_cons]
    unfold textSize
    omega

/-! ### Values and rows -/

theorem size_optionalText_le {text : Option String} {most : Nat}
    (h : ∀ words ∈ text, words.toUTF8.size ≤ most) : size .optionalText text ≤ 9 + most := by
  cases text with
  | none =>
    rw [size]
    omega
  | some words =>
    have hwords := h words rfl
    rw [size, textSize]
    omega

/-- The index of a variant fits in four octets. -/
def Indexable : FieldType → Prop
  | .choice among => among.variants.length ≤ 2 ^ 32
  | _ => True

instance : DecidablePred Indexable := fun type ↦
  match type with
  | .choice among => inferInstanceAs (Decidable (among.variants.length ≤ 2 ^ 32))
  | .word _ | .text | .optionalText | .blob | .textMap => inferInstanceAs (Decidable True)

theorem read_blob {bytes : ByteArray} (hsize : bytes.size < 2 ^ 64) (rest : ByteArray) :
    read .blob (write .blob bytes ++ rest) = .ok (bytes, rest) := by
  simp only [read, write, ByteArray.append_assoc, number_length hsize, split?_append, bind,
    Except.bind]

theorem read_write {type : FieldType} (hindex : Indexable type) {value : type.Val}
    (hsize : size type value < 2 ^ 64) (rest : ByteArray) :
    read type (write type value ++ rest) = .ok (value, rest) := by
  cases type with
  | word width =>
    have hvalue : value.toNat < 256 ^ width.size := by
      have := value.isLt
      cases width <;> simpa [Width.size, Width.bits] using this
    simp only [read, write, number_littleEndian hvalue, BitVec.ofNat_toNat, BitVec.setWidth_eq,
      bind, Except.bind]
  | text => exact readText_writeText hsize rest
  | optionalText =>
    have hnone : number 1 ((littleEndian 1 0).toByteArray ++ rest) = .ok (0, rest) :=
      number_littleEndian (by decide) rest
    cases value with
    | none =>
      change read .optionalText ((littleEndian 1 0).toByteArray ++ rest) = _
      simp only [read, hnone, bind, Except.bind]
    | some text =>
      have htext : textSize text < 2 ^ 64 := by
        simp only [size] at hsize
        omega
      have hsome : number 1 ((littleEndian 1 1).toByteArray ++ (writeText text ++ rest)) =
          .ok (1, writeText text ++ rest) := number_littleEndian (by decide) _
      change read .optionalText ((littleEndian 1 1).toByteArray ++ writeText text ++ rest) = _
      simp only [read, ByteArray.append_assoc, hsome, readText_writeText htext, bind, Except.bind]
  | blob =>
    have hblob : value.size < 2 ^ 64 := by
      simp only [size] at hsize
      omega
    exact read_blob hblob rest
  | choice among =>
    have hvalue : value.val < 256 ^ 4 := by
      have := value.isLt
      unfold Indexable at hindex
      omega
    simp only [read, write, number_littleEndian hvalue, bind, Except.bind, value.isLt, dif_pos]
  | textMap =>
    have hentries : entriesSize value.entries < 2 ^ 64 := by
      simp only [size] at hsize
      omega
    have hlength : value.entries.length < 2 ^ 64 :=
      Nat.lt_of_le_of_lt (length_le_entriesSize _) hentries
    simp only [read, write, ByteArray.append_assoc, number_length hlength,
      readEntries_writeEntries hentries, bind, Except.bind]
    rw [← TextMap.ofList, TextMap.ofList_entries]

theorem readRow_writeRow {fields : List Field} (hindex : ∀ field ∈ fields, Indexable field.type)
    {row : Row fields} (hsize : rowSize row < 2 ^ 64) (rest : ByteArray) :
    readRow fields (writeRow row ++ rest) = .ok (row, rest) := by
  induction fields with
  | nil => simp only [readRow, writeRow, ByteArray.empty_append]
  | cons field fields ih =>
    obtain ⟨value, others⟩ := row
    have hvalue : size field.type value < 2 ^ 64 := by
      unfold rowSize at hsize
      omega
    have hothers : rowSize others < 2 ^ 64 := by
      unfold rowSize at hsize
      omega
    simp only [readRow, writeRow, ByteArray.append_assoc,
      read_write (hindex field List.mem_cons_self) hvalue,
      ih (fun other hother ↦ hindex other (List.mem_cons_of_mem _ hother)) hothers, bind,
      Except.bind]

end TypedPacket.FixedWidth
