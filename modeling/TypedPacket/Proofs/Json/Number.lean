import Mathlib.Data.List.TakeDrop
import TypedPacket.Json.Lexeme
import TypedPacket.Proofs.Text.Order

/-!
# Numbers in JSON

A row of digits without zeros in front is read up to its end (`numeral_ascii`), and an integer that
a word of 64 bits holds is read back from its digits, provided that what follows ends a value
(`number_digits`).
-/

set_option autoImplicit false
set_option relaxedAutoImplicit false

namespace TypedPacket

/-! ### Digits as octets -/

/-- The octets of characters below 128. -/
def ascii (l : List Char) : List UInt8 := l.map fun c ↦ UInt8.ofNat c.toNat

theorem ascii_append (a b : List Char) : ascii (a ++ b) = ascii a ++ ascii b := List.map_append

theorem octets_ofList {l : List Char} (h : ∀ c ∈ l, c.toNat < 128) :
    octets (String.ofList l).toUTF8 = ascii l := by
  rw [Utf8.octets_toUTF8, String.toList_ofList]
  induction l with
  | nil => rfl
  | cons c l ih =>
    obtain ⟨hc, hl⟩ := List.forall_mem_cons.mp h
    have hsmall : c.val.toNat ≤ 127 := Nat.le_of_lt_succ hc
    rw [List.flatMap_cons, ih hl, String.utf8EncodeChar, if_pos hsmall]
    rfl

theorem octets_append_text (a b : String) :
    octets (a ++ b).toUTF8 = octets a.toUTF8 ++ octets b.toUTF8 := by
  simp only [Utf8.octets_toUTF8, String.toList_append, List.flatMap_append]

theorem toNat_of_isDigit {c : Char} (h : c.isDigit) : 48 ≤ c.toNat ∧ c.toNat ≤ 57 :=
  Char.isDigit_iff_toNat.mp h

theorem octets_ofList_digits {l : List Char} (h : ∀ c ∈ l, c.isDigit) :
    octets (String.ofList l).toUTF8 = ascii l :=
  octets_ofList fun c hc ↦ by have := toNat_of_isDigit (h c hc); omega

theorem isDigit_toDigits (n : Nat) : ∀ c ∈ Nat.toDigits 10 n, c.isDigit :=
  fun _ hc ↦ Nat.isDigit_of_mem_toDigits (by decide) (by decide) hc

theorem octets_toString (n : Nat) : octets (toString n).toUTF8 = ascii (Nat.toDigits 10 n) := by
  rw [← octets_ofList_digits (isDigit_toDigits n), ← Nat.repr_eq_ofList_toDigits]
  rfl

/-- Digits without zeros in front: there is one, and the first is not zero unless it is the only
one. -/
def Leads (l : List Char) : Prop := l = ['0'] ∨ ∃ c rest, l = c :: rest ∧ c ≠ '0'

theorem exists_toDigits_cons {n : Nat} (hn : 0 < n) :
    ∃ c rest, Nat.toDigits 10 n = c :: rest ∧ c ≠ '0' := by
  induction n using Nat.strongRecOn with
  | ind n ih =>
    rw [Nat.toDigits_eq_if (by decide)]
    split
    · exact ⟨_, [], rfl, Nat.digitChar_eq_zero.not.mpr (Nat.ne_of_gt hn)⟩
    · obtain ⟨c, rest, hfront, hc⟩ := ih (n / 10) (by omega) (by omega)
      exact ⟨c, rest ++ [(n % 10).digitChar], by rw [hfront, List.cons_append], hc⟩

theorem leads_toDigits (n : Nat) : Leads (Nat.toDigits 10 n) := by
  rcases Nat.eq_zero_or_pos n with rfl | hn
  · exact .inl rfl
  · exact .inr (exists_toDigits_cons hn)

namespace Json

theorem toNat_octet {c : Char} (h : c.isDigit) : (UInt8.ofNat c.toNat).toNat = c.toNat := by
  have hrange := toNat_of_isDigit h
  rw [UInt8.toNat_ofNat', Nat.mod_eq_of_lt (by omega)]

theorem isDigit_octet {c : Char} (h : c.isDigit) : isDigit (UInt8.ofNat c.toNat) = true := by
  simp only [isDigit, Bool.and_eq_true, decide_eq_true_eq, UInt8.le_iff_toNat_le, toNat_octet h]
  exact toNat_of_isDigit h

theorem exists_of_isDigit {octet : UInt8} (h : isDigit octet = true) :
    ∃ n, 48 ≤ n ∧ n ≤ 57 ∧ octet = UInt8.ofNat n := by
  simp only [isDigit, Bool.and_eq_true, decide_eq_true_eq, UInt8.le_iff_toNat_le] at h
  exact ⟨octet.toNat, h.1, h.2, UInt8.ofNat_toNat.symm⟩

theorem isDigit_ascii {l : List Char} (h : ∀ c ∈ l, c.isDigit) :
    ∀ octet ∈ ascii l, isDigit octet = true := by
  intro octet hoctet
  obtain ⟨c, hc, rfl⟩ := List.mem_map.mp hoctet
  exact isDigit_octet (h c hc)

theorem ofDigits_ascii {l : List Char} (h : ∀ c ∈ l, c.isDigit) (before : Nat) :
    ofDigits before (ascii l) = Nat.ofDigitChars 10 l before := by
  induction l generalizing before with
  | nil => rfl
  | cons c l ih =>
    obtain ⟨hc, hl⟩ := List.forall_mem_cons.mp h
    rw [Nat.ofDigitChars_cons, ascii, List.map_cons, ofDigits, List.foldl_cons, toNat_octet hc]
    exact ih hl _

theorem exists_toDigits_octet (n : Nat) :
    ∃ octet body, ascii (Nat.toDigits 10 n) = octet :: body ∧ isDigit octet = true := by
  have hne : ascii (Nat.toDigits 10 n) ≠ [] :=
    fun h ↦ Nat.toDigits_ne_nil (List.map_eq_nil_iff.mp h)
  obtain ⟨octet, body, hbody⟩ := List.exists_cons_of_ne_nil hne
  exact ⟨octet, body, hbody,
    isDigit_ascii (isDigit_toDigits n) octet (hbody ▸ List.mem_cons_self)⟩

/-- The octets do not start with a digit. -/
def Breaks (rest : List UInt8) : Prop := ∀ octet ∈ rest.head?, isDigit octet = false

theorem breaks_cons {octet : UInt8} (h : isDigit octet = false) (rest : List UInt8) :
    Breaks (octet :: rest) := by
  rintro _ ⟨⟩
  exact h

theorem span_digits {l rest : List UInt8} (hl : ∀ octet ∈ l, isDigit octet = true)
    (hrest : Breaks rest) : (l ++ rest).span isDigit = (l, rest) := by
  rw [List.span_eq_takeWhile_dropWhile, List.takeWhile_append_of_pos hl,
    List.dropWhile_append_of_pos hl]
  cases rest with
  | nil => rw [List.takeWhile_nil, List.dropWhile_nil, List.append_nil]
  | cons octet rest =>
    have hstop : ¬ isDigit octet = true := Bool.eq_false_iff.mp (hrest octet rfl)
    rw [List.takeWhile_cons_of_neg hstop, List.dropWhile_cons_of_neg hstop, List.append_nil]

theorem numeral_zero (negative : Bool) {rest : List UInt8} (hrest : Breaks rest) :
    numeral negative (0x30 :: rest) = numeralTail negative 0 rest := by
  cases rest with
  | nil => rfl
  | cons octet rest =>
    have hstop : ¬ isDigit octet = true := Bool.eq_false_iff.mp (hrest octet rfl)
    simp only [numeral, if_true, if_neg hstop]

theorem numeral_cons (negative : Bool) {octet : UInt8} (hzero : octet ≠ 0x30)
    (hdigit : isDigit octet = true) (rest : List UInt8) :
    numeral negative (octet :: rest) =
      numeralTail negative (ofDigits (ofDigits 0 [octet]) (rest.span isDigit).1)
        (rest.span isDigit).2 :=
  (if_neg hzero).trans (if_pos hdigit)

/-- A row of digits is read up to its end. -/
theorem numeral_ascii {l : List Char} (hdigits : ∀ c ∈ l, c.isDigit) (hleads : Leads l)
    (negative : Bool) {rest : List UInt8} (hrest : Breaks rest) :
    numeral negative (ascii l ++ rest) =
      numeralTail negative (Nat.ofDigitChars 10 l 0) rest := by
  rcases hleads with rfl | ⟨c, l, rfl, hc⟩
  · exact numeral_zero negative hrest
  · obtain ⟨hdigit, hdigits⟩ := List.forall_mem_cons.mp hdigits
    have hzero : UInt8.ofNat c.toNat ≠ 0x30 := fun h ↦
      hc (Char.toNat_inj.mp ((toNat_octet hdigit).symm.trans (congrArg UInt8.toNat h)))
    have hfirst : ofDigits 0 [UInt8.ofNat c.toNat] = 10 * 0 + (c.toNat - '0'.toNat) :=
      congrArg (fun m ↦ 10 * 0 + (m - 48)) (toNat_octet hdigit)
    have hspan := span_digits (isDigit_ascii hdigits) hrest
    have hread := numeral_cons negative hzero (isDigit_octet hdigit) (ascii l ++ rest)
    rw [hspan, hfirst, ofDigits_ascii hdigits, ← Nat.ofDigitChars_cons] at hread
    exact hread

/-! ### Integers -/

/-- What may follow a value: nothing, a comma or a closing bracket. -/
def Ends (rest : List UInt8) : Prop :=
  ∀ octet ∈ rest.head?, octet = 0x2C ∨ octet = 0x5D ∨ octet = 0x7D

theorem Ends.breaks {rest : List UInt8} (h : Ends rest) : Breaks rest := by
  intro octet hoctet
  rcases h octet hoctet with rfl | rfl | rfl <;> rfl

theorem numeralTail_ends (negative : Bool) (digits : Nat) {rest : List UInt8} (h : Ends rest) :
    numeralTail negative digits rest = .ok (⟨negative, digits, 0, true⟩, rest) := by
  cases rest with
  | nil => rfl
  | cons octet rest => rcases h octet rfl with rfl | rfl | rfl <;> rfl

/-- A row of digits is read as an integer, if a word of 64 bits holds it. -/
theorem number_digits (negative : Bool) {n : Nat} {value : Int} (hzero : ¬ (negative ∧ n = 0))
    (hvalue : (if negative then -n else n : Int) = value)
    (range : -2 ^ 63 ≤ value ∧ value < 2 ^ 64) {rest : List UInt8} (hrest : Ends rest) :
    number negative (ascii (Nat.toDigits 10 n) ++ rest) = .ok (.integer value range, rest) := by
  subst hvalue
  have hread : numeral negative (ascii (Nat.toDigits 10 n) ++ rest) =
      .ok (⟨negative, n, 0, true⟩, rest) := by
    rw [numeral_ascii (isDigit_toDigits n) (leads_toDigits n) negative hrest.breaks,
      numeralTail_ends negative _ hrest, Nat.ofDigitChars_toDigits (by decide) (by decide)]
  have hexact : Numeral.value? ⟨negative, n, 0, true⟩ = some (.integer _ range) := by
    simp only [Numeral.value?, hzero, not_false_eq_true, and_self, if_true, Number.integer?,
      dif_pos range]
  simp only [number, hread, hexact, bind, Except.bind]

end Json

end TypedPacket
