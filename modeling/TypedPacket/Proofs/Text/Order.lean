import TypedPacket.Octets
import TypedPacket.Text.Map

/-!
# The order of texts is the order of their octets

Maps of texts are kept in the order of their keys, which compares characters. In UTF-8 the octets of
a lesser character come first whatever follows (`Utf8.encodeChar_append_lt`): characters of
different widths differ in their first octet, and those of one width are numerals in base 64. So the
order of texts is the lexicographic order of their octets (`Utf8.octets_toUTF8_lt_iff`), and entries
are sorted exactly if the octets of their keys increase (`Entries.sorted_iff_increasing`).
-/

set_option autoImplicit false
set_option relaxedAutoImplicit false

namespace TypedPacket

namespace Utf8

/-- Two octets decide, unless they are equal; then the rest does. -/
theorem cons_ofNat_lt_cons {a b : Nat} (hb : b < 256) (hle : a ≤ b) {x y : List UInt8}
    (hrest : a = b → x < y) : UInt8.ofNat a :: x < UInt8.ofNat b :: y := by
  rw [List.cons_lt_cons_iff, UInt8.lt_iff_toNat_lt, UInt8.toNat_ofNat', UInt8.toNat_ofNat']
  rcases Nat.lt_or_eq_of_le hle with hlt | heq
  · left
    omega
  · exact .inr ⟨congrArg UInt8.ofNat heq, hrest heq⟩

/-- Assumes: a character before another. Its octets come before those of the other, whatever follows
them. -/
theorem encodeChar_append_lt {c d : Char} (h : c < d) (x y : List UInt8) :
    String.utf8EncodeChar c ++ x < String.utf8EncodeChar d ++ y := by
  have hscalar : d.val.toNat < 0x110000 := by
    have hvalid := d.valid
    simp only [UInt32.isValidChar, Nat.isValidChar] at hvalid
    omega
  rw [Char.lt_def, UInt32.lt_iff_toNat_lt] at h
  rw [String.utf8EncodeChar.eq_1, String.utf8EncodeChar.eq_1]
  generalize c.val.toNat = m at h
  generalize d.val.toNat = n at h hscalar
  -- From the shortest width up, both characters have it or only the lesser one does.
  by_cases hn : n ≤ 127
  · rw [if_pos hn, if_pos (by omega)]
    exact cons_ofNat_lt_cons (by omega) (by omega) (by omega)
  rw [if_neg hn]
  by_cases hm : m ≤ 127
  · rw [if_pos hm]
    split
    · exact cons_ofNat_lt_cons (by omega) (by omega) (by omega)
    split
    · exact cons_ofNat_lt_cons (by omega) (by omega) (by omega)
    · exact cons_ofNat_lt_cons (by omega) (by omega) (by omega)
  rw [if_neg hm]
  by_cases hn : n ≤ 2047
  · rw [if_pos hn, if_pos (by omega)]
    refine cons_ofNat_lt_cons (by omega) (by omega) fun _ ↦ ?_
    exact cons_ofNat_lt_cons (by omega) (by omega) (by omega)
  rw [if_neg hn]
  by_cases hm : m ≤ 2047
  · rw [if_pos hm]
    split
    · exact cons_ofNat_lt_cons (by omega) (by omega) (by omega)
    · exact cons_ofNat_lt_cons (by omega) (by omega) (by omega)
  rw [if_neg hm]
  by_cases hn : n ≤ 65535
  · rw [if_pos hn, if_pos (by omega)]
    refine cons_ofNat_lt_cons (by omega) (by omega) fun _ ↦ ?_
    refine cons_ofNat_lt_cons (by omega) (by omega) fun _ ↦ ?_
    exact cons_ofNat_lt_cons (by omega) (by omega) (by omega)
  rw [if_neg hn]
  by_cases hm : m ≤ 65535
  · rw [if_pos hm]
    exact cons_ofNat_lt_cons (by omega) (by omega) (by omega)
  rw [if_neg hm]
  refine cons_ofNat_lt_cons (by omega) (by omega) fun _ ↦ ?_
  refine cons_ofNat_lt_cons (by omega) (by omega) fun _ ↦ ?_
  refine cons_ofNat_lt_cons (by omega) (by omega) fun _ ↦ ?_
  exact cons_ofNat_lt_cons (by omega) (by omega) (by omega)

theorem flatMap_encodeChar_lt {a b : List Char} (h : a < b) :
    a.flatMap String.utf8EncodeChar < b.flatMap String.utf8EncodeChar := by
  induction a generalizing b with
  | nil =>
    cases b with
    | nil => exact absurd h (List.lt_irrefl _)
    | cons d b =>
      obtain ⟨first, rest, hd⟩ :=
        List.exists_cons_of_ne_nil (String.utf8EncodeChar_ne_nil (c := d))
      rw [List.flatMap_nil, List.flatMap_cons, hd]
      exact List.nil_lt_cons _ _
  | cons c a ih =>
    cases b with
    | nil => exact absurd h (List.not_lt_nil _)
    | cons d b =>
      rw [List.flatMap_cons, List.flatMap_cons]
      rcases List.cons_lt_cons_iff.mp h with hfirst | ⟨rfl, hrest⟩
      · exact encodeChar_append_lt hfirst _ _
      · exact List.append_left_lt (ih hrest)

theorem octets_toUTF8 (text : String) :
    octets text.toUTF8 = text.toList.flatMap String.utf8EncodeChar := by
  rw [String.toUTF8_eq_toByteArray, ← String.utf8Encode_toList, List.utf8Encode,
    octets_toByteArray]

theorem octets_toUTF8_lt {a b : String} (h : a < b) : octets a.toUTF8 < octets b.toUTF8 := by
  rw [octets_toUTF8, octets_toUTF8]
  exact flatMap_encodeChar_lt (String.lt_iff.mp h)

theorem octets_toUTF8_lt_iff {a b : String} : octets a.toUTF8 < octets b.toUTF8 ↔ a < b := by
  refine ⟨fun h ↦ Classical.byContradiction fun hab ↦ ?_, octets_toUTF8_lt⟩
  by_cases hba : b < a
  · exact List.lt_asymm h (octets_toUTF8_lt hba)
  · rw [Entries.eq_of_not_lt hab hba] at h
    exact List.lt_irrefl _ h

end Utf8

namespace Entries

/-- The octets of the keys increase along the entries; no key comes twice. -/
def Increasing (entries : List (String × String)) : Prop :=
  entries.Pairwise fun earlier later ↦ octets earlier.1.toUTF8 < octets later.1.toUTF8

theorem sorted_iff_increasing {entries : List (String × String)} :
    Sorted entries ↔ Increasing entries := by
  unfold Sorted Increasing
  simp only [Utf8.octets_toUTF8_lt_iff]

end Entries

/-- The entries of the map that entries leave are these entries exactly if their keys increase. -/
theorem TextMap.entries_ofList_eq_iff {entries : List (String × String)} :
    (ofList entries).entries = entries ↔ Entries.Increasing entries := by
  rw [← Entries.sorted_iff_increasing]
  constructor
  · intro h
    rw [← h]
    exact (ofList entries).sorted
  · intro hsorted
    exact congrArg TextMap.entries (ofList_entries ⟨entries, hsorted⟩)

end TypedPacket
