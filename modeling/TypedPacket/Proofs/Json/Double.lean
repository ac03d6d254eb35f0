import TypedPacket.Json.Value
import TypedPacket.Proofs.Json.Number
import TypedPacket.Proofs.Number.Shortest

/-!
# Numbers with a fraction in JSON

A number with a fraction is written as its shortest decimal. Whichever way the decimal is set down,
it is read as digits and a power of ten of the same size (`legible_decimal`), and these have a
nearest number, since the decimal is not beyond the finite ones (`exists_number_double`).
-/

set_option autoImplicit false
set_option relaxedAutoImplicit false

namespace TypedPacket.Json

open Binary64 (middle isFinite)
open Decimal (Moderate)

/-! ### Digits and a power that have a nearest number -/

theorem exists_value? {digits : Nat} {power : Int}
    (h : digits * 10 ^ power.toNat < middle 970 * 10 ^ (-power).toNat) (hpower : power ≤ 400)
    (negative : Bool) : ∃ value, (Numeral.mk negative digits power false).value? = some value := by
  have hdouble : ∃ bits, Binary64.ofDecimal digits power = some bits ∧ isFinite bits = true := by
    rw [Binary64.ofDecimal]
    split_ifs with hzero hlarge hsmall
    · exact ⟨0, rfl, rfl⟩
    · omega
    · exact ⟨0, rfl, rfl⟩
    · exact Binary64.exists_nearest
        (Nat.mul_pos (Nat.pos_of_ne_zero hzero) (Nat.pow_pos (by decide)))
        (Nat.pow_pos (by decide)) h
  obtain ⟨bits, hbits, hfinite⟩ := hdouble
  have hsigned : isFinite (if negative then Binary64.negate bits else bits) = true := by
    cases negative with
    | false => exact hfinite
    | true => exact (Binary64.isFinite_negate bits).trans hfinite
  refine ⟨.double _ hsigned, ?_⟩
  simp only [Numeral.value?, Bool.false_eq_true, false_and, if_false, Numeral.double?, hbits,
    Option.map_some, Option.bind_some, Number.double?, dif_pos hsigned]

/-! ### What follows the digits before the point -/

theorem le_ofDigitChars (l : List Char) (n : Nat) : n ≤ Nat.ofDigitChars 10 l n := by
  rw [Nat.ofDigitChars_eq_ofDigitChars_zero]
  exact Nat.le_trans (Nat.le_mul_of_pos_left n (Nat.pow_pos (by decide))) (Nat.le_add_right _ _)

theorem exponentDigits_ascii {l : List Char} (hl : ∀ c ∈ l, c.isDigit) (digits : Nat)
    (negativePower : Bool) {sofar : Nat} (hmax : Nat.ofDigitChars 10 l sofar ≤ maxExponent)
    {rest : List UInt8} (hrest : Breaks rest) :
    exponentDigits digits negativePower sofar (ascii l ++ rest) =
      .ok (some (Nat.ofDigitChars 10 l sofar), rest) := by
  induction l generalizing sofar with
  | nil =>
    cases rest with
    | nil => rfl
    | cons octet rest => exact if_neg (Bool.eq_false_iff.mp (hrest octet rfl))
  | cons c l ih =>
    obtain ⟨hc, hl⟩ := List.forall_mem_cons.mp hl
    have hnext : ofDigits sofar [UInt8.ofNat c.toNat] = 10 * sofar + (c.toNat - '0'.toNat) :=
      congrArg (fun m ↦ 10 * sofar + (m - 48)) (toNat_octet hc)
    rw [Nat.ofDigitChars_cons] at hmax ⊢
    have hfits := Nat.not_lt.mpr (Nat.le_trans (le_ofDigitChars l _) hmax)
    rw [← hnext] at hfits hmax ⊢
    exact ((if_pos (isDigit_octet hc)).trans (if_neg hfits)).trans (ih hl hmax)

/-- An exponent with its sign. -/
theorem exponentPart_ascii {n : Nat} (hn : n ≤ maxExponent) (digits : Nat) (negativePower : Bool)
    {rest : List UInt8} (hrest : Breaks rest) :
    exponentPart digits
        ((if negativePower then 0x2D else 0x2B) :: (ascii (Nat.toDigits 10 n) ++ rest)) =
      .ok ((negativePower, some n), rest) := by
  have hdigits := isDigit_toDigits n
  have hnumber : Nat.ofDigitChars 10 (Nat.toDigits 10 n) 0 = n := Nat.ofDigitChars_ten_toDigits
  obtain ⟨c, l, htext⟩ :=
    List.exists_cons_of_ne_nil (Nat.toDigits_ne_nil : Nat.toDigits 10 n ≠ [])
  rw [htext] at hdigits hnumber ⊢
  obtain ⟨hc, hl⟩ := List.forall_mem_cons.mp hdigits
  have hfirst : ofDigits 0 [UInt8.ofNat c.toNat] = 10 * 0 + (c.toNat - '0'.toNat) :=
    congrArg (fun m ↦ 10 * 0 + (m - 48)) (toNat_octet hc)
  rw [Nat.ofDigitChars_cons, ← hfirst] at hnumber
  have hread := exponentDigits_ascii hl digits negativePower (hnumber ▸ hn) hrest
  rw [hnumber] at hread
  have hpart : exponentPart digits
      ((if negativePower then 0x2D else 0x2B) :: (ascii (c :: l) ++ rest)) =
      if isDigit (UInt8.ofNat c.toNat) then
        (exponentDigits digits negativePower (ofDigits 0 [UInt8.ofNat c.toNat])
          (ascii l ++ rest)).bind fun found ↦ .ok ((negativePower, found.1), found.2)
      else stop .invalidNumber (ascii l ++ rest) := by
    cases negativePower <;> rfl
  rw [hpart, if_pos (isDigit_octet hc), hread]
  rfl

theorem scaledTail_ends (negative : Bool) (digits places : Nat) {rest : List UInt8}
    (hrest : Ends rest) :
    scaledTail negative digits places rest = .ok (⟨negative, digits, -places, false⟩, rest) := by
  cases rest with
  | nil => rfl
  | cons octet rest => rcases hrest octet rfl with rfl | rfl | rfl <;> rfl

theorem scaledTail_exponent {n : Nat} (hn : n ≤ maxExponent) (negative negativePower : Bool)
    (digits places : Nat) {rest : List UInt8} (hrest : Ends rest) :
    scaledTail negative digits places
        (0x65 :: (if negativePower then 0x2D else 0x2B) :: (ascii (Nat.toDigits 10 n) ++ rest)) =
      .ok (⟨negative, digits, (if negativePower then -(n : Int) else n) - places, false⟩,
        rest) := by
  have hpart := exponentPart_ascii hn digits negativePower hrest.breaks
  simp only [scaledTail, hpart, bind, Except.bind, true_or, if_true]

theorem numeralTail_point {l : List Char} (hl : ∀ c ∈ l, c.isDigit) (hne : l ≠ [])
    (negative : Bool) (digits : Nat) {rest : List UInt8} (hrest : Breaks rest) :
    numeralTail negative digits (0x2E :: (ascii l ++ rest)) =
      scaledTail negative (Nat.ofDigitChars 10 l digits) l.length rest := by
  have hspan := span_digits (isDigit_ascii hl) hrest
  obtain ⟨c, l, rfl⟩ := List.exists_cons_of_ne_nil hne
  have hlength : (ascii (c :: l)).length = (c :: l).length := List.length_map _
  rw [← ofDigits_ascii hl, ← hlength]
  simp only [numeralTail, hspan]
  rfl

/-! ### Decimals as they are set down -/

/-- What starts with a digit and is read as digits and a power of ten, whatever ends it. -/
structure Readable (part : List UInt8) (digits : Nat) (power : Int) : Prop where
  starts : ∃ octet body, part = octet :: body ∧ isDigit octet = true
  reads : ∀ negative rest, Ends rest →
    numeral negative (part ++ rest) = .ok (⟨negative, digits, power, false⟩, rest)

theorem starts_ascii {l : List Char} (hl : ∀ c ∈ l, c.isDigit) (hleads : Leads l)
    (more : List UInt8) : ∃ octet body, ascii l ++ more = octet :: body ∧ isDigit octet = true := by
  rcases hleads with rfl | ⟨c, l, rfl, -⟩
  · exact ⟨0x30, more, rfl, rfl⟩
  · exact ⟨_, _, rfl, isDigit_octet (hl c List.mem_cons_self)⟩

section SetDown

variable {front places : List Char} (hfront : ∀ c ∈ front, c.isDigit) (hleads : Leads front)
  (hplaces : ∀ c ∈ places, c.isDigit) (hne : places ≠ [])

include hfront hleads

theorem readable_exponent {n : Nat} (hn : n ≤ maxExponent) (negativePower : Bool) :
    Readable (ascii front ++ 0x65 :: (if negativePower then 0x2D else 0x2B) ::
        ascii (Nat.toDigits 10 n))
      (Nat.ofDigitChars 10 front 0) (if negativePower then -(n : Int) else n) where
  starts := starts_ascii hfront hleads _
  reads negative rest hrest := by
    have htail :=
      scaledTail_exponent hn negative negativePower (Nat.ofDigitChars 10 front 0) 0 hrest
    rw [List.append_assoc, List.cons_append, List.cons_append,
      numeral_ascii hfront hleads negative (breaks_cons rfl _)]
    rw [Int.natCast_zero, Int.sub_zero] at htail
    exact htail

include hplaces hne

theorem readable_point : Readable (ascii front ++ 0x2E :: ascii places)
    (Nat.ofDigitChars 10 (front ++ places) 0) (-places.length) where
  starts := starts_ascii hfront hleads _
  reads negative rest hrest := by
    rw [List.append_assoc, List.cons_append,
      numeral_ascii hfront hleads negative (breaks_cons rfl _),
      numeralTail_point hplaces hne negative _ hrest.breaks, scaledTail_ends negative _ _ hrest,
      Nat.ofDigitChars_append]

theorem readable_point_exponent {n : Nat} (hn : n ≤ maxExponent) (negativePower : Bool) :
    Readable (ascii front ++ 0x2E :: (ascii places ++ 0x65 ::
        (if negativePower then 0x2D else 0x2B) :: ascii (Nat.toDigits 10 n)))
      (Nat.ofDigitChars 10 (front ++ places) 0)
      ((if negativePower then -(n : Int) else n) - places.length) where
  starts := starts_ascii hfront hleads _
  reads negative rest hrest := by
    simp only [List.append_assoc, List.cons_append]
    rw [numeral_ascii hfront hleads negative (breaks_cons rfl _),
      numeralTail_point hplaces hne negative _ (breaks_cons rfl _),
      scaledTail_exponent hn negative negativePower _ _ hrest, Nat.ofDigitChars_append]

end SetDown

theorem octets_zeros (n : Nat) :
    octets (NumberStyle.zeros n).toUTF8 = ascii (List.replicate n '0') :=
  octets_ofList_digits fun c hc ↦ by rw [List.eq_of_mem_replicate hc]; rfl

theorem isDigit_zeros (n : Nat) : ∀ c ∈ List.replicate n '0', c.isDigit :=
  fun c hc ↦ by rw [List.eq_of_mem_replicate hc]; rfl

theorem leads_take {l : List Char} (h : Leads l) {n : Nat} (hn : 0 < n) : Leads (l.take n) := by
  obtain ⟨n, rfl⟩ : ∃ m, n = m + 1 := ⟨n - 1, by omega⟩
  rcases h with rfl | ⟨c, l, rfl, hc⟩
  · rw [List.take_succ_cons, List.take_nil]
    exact .inl rfl
  · exact .inr ⟨c, l.take n, List.take_succ_cons, hc⟩

/-- The decimal is set down and is read as one of the same size. -/
def Legible (text : String) : Prop :=
  ∃ digits power, Readable (octets text.toUTF8) digits power ∧
    digits * 10 ^ power.toNat < middle 970 * 10 ^ (-power).toNat ∧ power ≤ 400

variable {d : Decimal}

theorem legible_of_readable (h : Moderate d) {text : String}
    (hread : Readable (octets text.toUTF8) d.digits d.power) : Legible text := by
  have hpower := h.power_le
  exact ⟨d.digits, d.power, hread, h.digits_lt, by omega⟩

/-- With zeros in place of the power, and one after the point. -/
theorem legible_zeros (h : Moderate d) (hpower : 0 ≤ d.power) :
    Legible (String.ofList (Nat.toDigits 10 d.digits) ++ NumberStyle.zeros d.power.toNat ++
      ".0") := by
  have hdigits := isDigit_toDigits d.digits
  have hleads : Leads (Nat.toDigits 10 d.digits ++ List.replicate d.power.toNat '0') := by
    rcases Nat.eq_zero_or_pos d.digits with hzero | hpos
    · rw [hzero, h.power_eq_zero hzero]
      exact .inl rfl
    · obtain ⟨c, l, htext, hc⟩ := exists_toDigits_cons hpos
      exact .inr ⟨c, l ++ List.replicate d.power.toNat '0', by rw [htext, List.cons_append], hc⟩
  have hfront : ∀ c ∈ Nat.toDigits 10 d.digits ++ List.replicate d.power.toNat '0', c.isDigit :=
    List.forall_mem_append.mpr ⟨hdigits, isDigit_zeros _⟩
  have hwritten : octets (String.ofList (Nat.toDigits 10 d.digits) ++
      NumberStyle.zeros d.power.toNat ++ ".0").toUTF8 =
      ascii (Nat.toDigits 10 d.digits ++ List.replicate d.power.toNat '0') ++
        0x2E :: ascii ['0'] := by
    rw [octets_append_text, octets_append_text, octets_ofList_digits hdigits, octets_zeros,
      ascii_append]
    rfl
  have hzero : ∀ c ∈ ['0'], c.isDigit := isDigit_zeros 1
  have hread := readable_point hfront hleads hzero (by decide)
  have hvalue : Nat.ofDigitChars 10 (Nat.toDigits 10 d.digits ++
      List.replicate d.power.toNat '0' ++ ['0']) 0 = 10 * (10 ^ d.power.toNat * d.digits) := by
    rw [Nat.ofDigitChars_append, Nat.ofDigitChars_append, Nat.ofDigitChars_ten_toDigits,
      Nat.ofDigitChars_replicate_zero]
    rfl
  have hlt := h.digits_lt
  have hneg : (-d.power).toNat = 0 := by omega
  rw [← hwritten, hvalue] at hread
  refine ⟨_, _, hread, ?_, by decide⟩
  rw [hneg, pow_zero, mul_one, Nat.mul_comm d.digits] at hlt
  generalize middle 970 = bound at hlt ⊢
  have hone : (-(-((['0'].length : Nat) : Int))).toNat = 1 := rfl
  have hnone : (-((['0'].length : Nat) : Int)).toNat = 0 := rfl
  rw [hone, hnone]
  omega

/-- With the point among the digits. -/
theorem legible_split (h : Moderate d) (hneg : d.power < 0)
    (hpoint : 0 < ((Nat.toDigits 10 d.digits).length : Int) + d.power) :
    Legible (String.ofList ((Nat.toDigits 10 d.digits).take
        ((Nat.toDigits 10 d.digits).length + d.power).toNat) ++ "." ++
      String.ofList ((Nat.toDigits 10 d.digits).drop
        ((Nat.toDigits 10 d.digits).length + d.power).toNat)) := by
  have hdigits := isDigit_toDigits d.digits
  have hleads := leads_toDigits d.digits
  have hnumber : Nat.ofDigitChars 10 (Nat.toDigits 10 d.digits) 0 = d.digits :=
    Nat.ofDigitChars_ten_toDigits
  generalize Nat.toDigits 10 d.digits = l at hdigits hleads hnumber hpoint ⊢
  generalize hn : ((l.length : Int) + d.power).toNat = n
  have hfront : ∀ c ∈ l.take n, c.isDigit := fun c hc ↦ hdigits c (List.mem_of_mem_take hc)
  have hplaces : ∀ c ∈ l.drop n, c.isDigit := fun c hc ↦ hdigits c (List.mem_of_mem_drop hc)
  have hlength : (l.drop n).length = l.length - n := List.length_drop
  have hne : l.drop n ≠ [] := List.ne_nil_of_length_pos (by omega)
  have hread := readable_point hfront (leads_take hleads (by omega)) hplaces hne
  have hpower : -((l.drop n).length : Int) = d.power := by omega
  rw [List.take_append_drop, hnumber, hpower] at hread
  refine legible_of_readable h ?_
  rw [octets_append_text, octets_append_text, octets_ofList_digits hfront,
    octets_ofList_digits hplaces, List.append_assoc]
  exact hread

/-- With zeros between the point and the digits. -/
theorem legible_small (h : Moderate d)
    (hpoint : ((Nat.toDigits 10 d.digits).length : Int) + d.power ≤ 0) :
    Legible ("0." ++ NumberStyle.zeros (-((Nat.toDigits 10 d.digits).length + d.power)).toNat ++
      String.ofList (Nat.toDigits 10 d.digits)) := by
  have hdigits := isDigit_toDigits d.digits
  have hnumber : Nat.ofDigitChars 10 (Nat.toDigits 10 d.digits) 0 = d.digits :=
    Nat.ofDigitChars_ten_toDigits
  have hpos : 0 < (Nat.toDigits 10 d.digits).length := Nat.length_toDigits_pos
  generalize Nat.toDigits 10 d.digits = l at hdigits hnumber hpoint hpos ⊢
  generalize hn : (-((l.length : Int) + d.power)).toNat = n
  have hplaces : ∀ c ∈ List.replicate n '0' ++ l, c.isDigit :=
    List.forall_mem_append.mpr ⟨isDigit_zeros n, hdigits⟩
  have hlength : (List.replicate n '0' ++ l).length = n + l.length := by
    rw [List.length_append, List.length_replicate]
  have hzero : ∀ c ∈ ['0'], c.isDigit := isDigit_zeros 1
  have hread := readable_point hzero (.inl rfl) hplaces
    (List.ne_nil_of_length_pos (by omega))
  have hpower : -((List.replicate n '0' ++ l).length : Int) = d.power := by omega
  have hvalue : Nat.ofDigitChars 10 (['0'] ++ (List.replicate n '0' ++ l)) 0 = d.digits := by
    rw [Nat.ofDigitChars_append, Nat.ofDigitChars_append, Nat.ofDigitChars_replicate_zero]
    exact hnumber
  rw [hvalue, hpower] at hread
  refine legible_of_readable h ?_
  rw [octets_append_text, octets_append_text, octets_zeros, octets_ofList_digits hdigits,
    List.append_assoc, ← ascii_append]
  exact hread

/-! The sign of an exponent. -/

theorem sign_natAbs (exponent : Int) :
    (if decide (exponent < 0) = true then -(exponent.natAbs : Int) else exponent.natAbs) =
      exponent := by
  simp only [decide_eq_true_eq]
  split_ifs <;> omega

theorem octets_sign (exponent : Int) :
    octets (if exponent < 0 then "-" else "+").toUTF8 =
      [if decide (exponent < 0) = true then 0x2D else 0x2B] := by
  simp only [decide_eq_true_eq]
  split_ifs <;> rfl

/-- Digits with the point behind the first of them, unless there is only one, and an exponent. -/
theorem readable_mantissa {l : List Char} (hdigits : ∀ c ∈ l, c.isDigit) (hleads : Leads l)
    (hpos : 0 < l.length) {exponent : Int} (hexponent : exponent.natAbs ≤ maxExponent) :
    Readable (octets (String.ofList (l.take 1) ++
        (if l.length = 1 then "" else "." ++ String.ofList (l.drop 1)) ++ "e" ++
        (if exponent < 0 then "-" else "+") ++ toString exponent.natAbs).toUTF8)
      (Nat.ofDigitChars 10 l 0) (exponent + 1 - l.length) := by
  have hsign := sign_natAbs exponent
  have hletters := octets_sign exponent
  have htext : octets (toString exponent.natAbs).toUTF8 =
      ascii (Nat.toDigits 10 exponent.natAbs) := octets_toString _
  by_cases hone : l.length = 1
  · have htake : l.take 1 = l := List.take_of_length_le (Nat.le_of_eq hone)
    have hread := readable_exponent hdigits hleads hexponent (decide (exponent < 0))
    have hpower : exponent + 1 - l.length = exponent := by omega
    rw [hsign] at hread
    simp only [octets_append_text, hletters, htext, if_pos hone, htake,
      octets_ofList_digits hdigits, List.append_assoc, hpower]
    exact hread
  · have hfirst : ∀ c ∈ l.take 1, c.isDigit := fun c hc ↦ hdigits c (List.mem_of_mem_take hc)
    have hplaces : ∀ c ∈ l.drop 1, c.isDigit := fun c hc ↦ hdigits c (List.mem_of_mem_drop hc)
    have hlength : (l.drop 1).length = l.length - 1 := List.length_drop
    have hread := readable_point_exponent hfirst (leads_take hleads Nat.one_pos) hplaces
      (List.ne_nil_of_length_pos (by omega)) hexponent (decide (exponent < 0))
    have hpower : exponent - ((l.drop 1).length : Int) = exponent + 1 - l.length := by omega
    rw [List.take_append_drop, hsign, hpower] at hread
    simp only [octets_append_text, hletters, htext, if_neg hone, octets_ofList_digits hfirst,
      octets_ofList_digits hplaces, List.append_assoc]
    exact hread

/-- With one digit before the point and an exponent. -/
theorem legible_exponent (h : Moderate d) :
    Legible (String.ofList ((Nat.toDigits 10 d.digits).take 1) ++
      (if (Nat.toDigits 10 d.digits).length = 1 then ""
        else "." ++ String.ofList ((Nat.toDigits 10 d.digits).drop 1)) ++ "e" ++
      (if (Nat.toDigits 10 d.digits).length + d.power - 1 < 0 then "-" else "+") ++
      toString ((Nat.toDigits 10 d.digits).length + d.power - 1).natAbs) := by
  have hmost := h.length_digits_le
  have hlow := h.power_ge
  have hhigh := h.power_le
  have hexponent : ((Nat.toDigits 10 d.digits).length + d.power - 1).natAbs ≤ maxExponent := by
    have hmax : maxExponent = 2147483647 := rfl
    omega
  have hread := readable_mantissa (isDigit_toDigits d.digits) (leads_toDigits d.digits)
    Nat.length_toDigits_pos hexponent
  have hpower : ((Nat.toDigits 10 d.digits).length : Int) + d.power - 1 + 1 -
      (Nat.toDigits 10 d.digits).length = d.power := by omega
  rw [Nat.ofDigitChars_ten_toDigits, hpower] at hread
  exact legible_of_readable h hread

/-- A moderate decimal is legible in every style. -/
theorem legible_decimal (style : NumberStyle) (h : Moderate d) : Legible (style.decimal d) := by
  by_cases hstyle : style.positional ((Nat.toDigits 10 d.digits).length + d.power - 1) = true
  · simp only [NumberStyle.decimal, hstyle, if_true]
    split_ifs with hpower hpoint
    · exact legible_zeros h hpower
    · exact legible_split h (by omega) hpoint
    · exact legible_small h (by omega)
  · simp only [NumberStyle.decimal, hstyle]
    exact legible_exponent h

/-- What is written for a finite number is a sign, if it has one, and then starts with a digit. It
is read as a number, whatever ends it. -/
theorem exists_number_double (style : NumberStyle) {bits : UInt64}
    (hfinite : isFinite bits = true) :
    ∃ negative octet body back,
      octets (style.double bits).toUTF8 = (if negative then [0x2D] else []) ++ octet :: body ∧
      isDigit octet = true ∧ ∀ rest, Ends rest →
        number negative (octet :: body ++ rest) = .ok (back, rest) := by
  obtain ⟨digits, power, hreadable, hlt, hpower⟩ :=
    legible_decimal style (Decimal.moderate_shortest hfinite)
  obtain ⟨octet, body, hbody, hdigit⟩ := hreadable.starts
  obtain ⟨back, hback⟩ := exists_value? hlt hpower (Binary64.signBit bits)
  refine ⟨Binary64.signBit bits, octet, body, back, ?_, hdigit, fun rest hrest ↦ ?_⟩
  · simp only [NumberStyle.double, hfinite, if_true, octets_append_text, hbody]
    cases Binary64.signBit bits <;> rfl
  · have hread := hreadable.reads (Binary64.signBit bits) rest hrest
    rw [hbody] at hread
    simp only [number, hread, hback, bind, Except.bind]

end TypedPacket.Json
