import Mathlib.Algebra.Group.Defs
import TypedPacket.Number.Shortest
import TypedPacket.Proofs.Number.Nearest

/-!
# Bounds of the shortest decimal

The digits chosen on a grid do not go beyond what rounds to the number (`Decimal.Reaches`). So the
shortest decimal of a finite number is below what is rounded to none, and its power of ten is not
large (`Decimal.moderate_shortest`).
-/

set_option autoImplicit false
set_option relaxedAutoImplicit false

namespace TypedPacket

open Binary64 (mantissa exponent exponentField isFinite middle)

namespace Binary64

theorem mantissa_lt (bits : UInt64) : mantissa bits < 2 ^ 53 := by
  have hfraction : fractionField bits < 2 ^ 52 := by
    rw [fractionField, UInt64.toNat_and]
    exact Nat.lt_of_le_of_lt Nat.and_le_right (by decide)
  rw [mantissa]
  split_ifs <;> omega

/-- Only zero has no mantissa. -/
theorem mantissa_pos {bits : UInt64} (h : isZero bits = false) : 0 < mantissa bits := by
  have hfield : exponentField bits = bits.toNat / 2 ^ 52 % 2 ^ 11 := by
    rw [exponentField_eq, Nat.shiftRight_eq_div_pow]
    exact Nat.and_two_pow_sub_one_eq_mod _ 11
  have hfraction : fractionField bits = bits.toNat % 2 ^ 52 := by
    rw [fractionField, UInt64.toNat_and]
    exact Nat.and_two_pow_sub_one_eq_mod _ 52
  have hmagnitude : (bits &&& 0x7FFFFFFFFFFFFFFF).toNat = bits.toNat % 2 ^ 63 := by
    rw [UInt64.toNat_and]
    exact Nat.and_two_pow_sub_one_eq_mod _ 63
  have hnonzero : (bits &&& 0x7FFFFFFFFFFFFFFF).toNat ≠ 0 := fun hzero ↦
    Bool.false_ne_true (h.symm.trans (beq_iff_eq.mpr (UInt64.toNat_inj.mp hzero)))
  rw [mantissa]
  split_ifs <;> omega

theorem exponent_bounds {bits : UInt64} (hfinite : isFinite bits = true) :
    -1074 ≤ exponent bits ∧ exponent bits ≤ 971 := by
  have hfield : exponentField bits < 2 ^ 11 := by
    rw [exponentField, UInt64.toNat_and]
    exact Nat.lt_of_le_of_lt Nat.and_le_right (by decide)
  rw [isFinite, bne_iff_ne] at hfinite
  rw [exponent]
  omega

end Binary64

namespace Decimal

variable {bits : UInt64} {k : Int} {d : Decimal}

/-- The digits reach no further than the reals that round to the number, and not their end if its
mantissa is odd. -/
def Reaches (m unit cell digits : Nat) : Prop :=
  digits * cell ≤ (4 * m + 2) * unit ∧ (m % 2 = 1 → digits * cell < (4 * m + 2) * unit)

theorem reaches_floor (m cell : Nat) {unit : Nat} (hunit : 0 < unit) :
    Reaches m unit cell (4 * m * unit / cell) := by
  have hfloor : 4 * m * unit / cell * cell ≤ 4 * m * unit := Nat.div_mul_le_self _ _
  have hhigh : (4 * m + 2) * unit = 4 * m * unit + 2 * unit := Nat.add_mul _ _ _
  constructor <;> omega

theorem reaches_above {m unit cell digits : Nat}
    (h : (if m % 2 = 0 then decide (digits * cell ≤ (4 * m + 2) * unit)
      else decide (digits * cell < (4 * m + 2) * unit)) = true) : Reaches m unit cell digits := by
  unfold Reaches
  split_ifs at h with heven
  · exact ⟨of_decide_eq_true h, fun hodd ↦ by omega⟩
  · have hlt := of_decide_eq_true h
    exact ⟨Nat.le_of_lt hlt, fun _ ↦ hlt⟩

/-- Digits that are not below the interval are not zero. -/
theorem pos_of_below {m low unit cell digits : Nat} (hlow : 0 < low) (hunit : 0 < unit)
    (h : (if m % 2 = 0 then decide (low * unit ≤ digits * cell)
      else decide (low * unit < digits * cell)) = true) : 0 < digits := by
  have hpos : 0 < low * unit := Nat.mul_pos hlow hunit
  have hdigits : 0 < digits * cell := by
    split_ifs at h with heven
    · exact Nat.lt_of_lt_of_le hpos (of_decide_eq_true h)
    · exact Nat.lt_trans hpos (of_decide_eq_true h)
  exact Nat.pos_of_mul_pos_right hdigits

/-- What a decimal on a grid is, if there is one. -/
theorem onGrid_spec (h : onGrid bits k = some d) :
    d.power = k ∧ (0 < mantissa bits → 0 < d.digits) ∧
      Reaches (mantissa bits) (2 ^ (exponent bits - 2).toNat * 10 ^ (-k).toNat)
        (2 ^ (-(exponent bits - 2)).toNat * 10 ^ k.toNat) d.digits := by
  have hunit : 0 < 2 ^ (exponent bits - 2).toNat * 10 ^ (-k).toNat := by positivity
  have hdown := reaches_floor (mantissa bits)
    (2 ^ (-(exponent bits - 2)).toNat * 10 ^ k.toNat) hunit
  simp only [onGrid] at h
  generalize mantissa bits = m at h hdown ⊢
  generalize 2 ^ (exponent bits - 2).toNat * 10 ^ (-k).toNat = unit at h hdown hunit ⊢
  generalize 2 ^ (-(exponent bits - 2)).toNat * 10 ^ k.toNat = cell at h hdown ⊢
  generalize 4 * m * unit / cell = floor at h hdown ⊢
  have hlow : 0 < m →
      0 < (if m = 2 ^ 52 ∧ 1 < exponentField bits then 4 * m - 1 else 4 * m - 2) := by
    intro hm
    split_ifs <;> omega
  -- The cases are which of the two candidates are in the interval.
  split at h
  · rename_i hbelow habove
    obtain rfl := Option.some.inj h
    refine ⟨rfl, ?_⟩
    dsimp only
    split_ifs
    · exact ⟨fun hm ↦ pos_of_below (hlow hm) hunit hbelow, hdown⟩
    · exact ⟨fun _ ↦ Nat.succ_pos floor, reaches_above habove⟩
  · rename_i hbelow habove
    obtain rfl := Option.some.inj h
    exact ⟨rfl, fun hm ↦ pos_of_below (hlow hm) hunit hbelow, hdown⟩
  · rename_i hbelow habove
    obtain rfl := Option.some.inj h
    exact ⟨rfl, fun _ ↦ Nat.succ_pos floor, reaches_above habove⟩
  · cases h

/-- Assumes: a mantissa of 53 bits, and a scale of no more than `2 ^ e`. The
largest mantissa is odd, so the end of its interval is not reached. -/
theorem Reaches.lt {m digits fine near far q e : Nat}
    (h : Reaches m (2 ^ q * far) (fine * near) digits) (hm : m < 2 ^ 53) (hq : q ≤ e)
    (hfine : 0 < fine) (hfar : 0 < far) : digits * near < middle (e + 1) * far := by
  have hpos : 0 < 2 ^ q * far := by positivity
  have hfirst : digits * near ≤ digits * (fine * near) :=
    Nat.mul_le_mul_left _ (Nat.le_mul_of_pos_left near hfine)
  have hlast : (2 ^ 55 - 2) * (2 ^ q * far) ≤ middle (e + 1) * far := by
    calc (2 ^ 55 - 2) * (2 ^ q * far) ≤ (2 ^ 55 - 2) * (2 ^ e * far) := by
          gcongr
          decide
      _ = middle (e + 1) * far := by
        rw [middle]
        ring
  obtain ⟨hle, hlt⟩ := h
  by_cases htop : m = 2 ^ 53 - 1
  · subst htop
    exact Nat.lt_of_le_of_lt hfirst (Nat.lt_of_lt_of_le (hlt (by decide)) hlast)
  · have hsmall : (4 * m + 2) * (2 ^ q * far) < (2 ^ 55 - 2) * (2 ^ q * far) :=
      Nat.mul_lt_mul_of_pos_right (by omega) hpos
    exact Nat.lt_of_le_of_lt (Nat.le_trans hfirst hle) (Nat.lt_of_lt_of_le hsmall hlast)

/-- The digits that a decimal on a grid has are below what is rounded to none. -/
theorem digits_lt_middle (hfinite : isFinite bits = true) (h : onGrid bits k = some d) :
    d.digits * 10 ^ k.toNat < middle 970 * 10 ^ (-k).toNat := by
  obtain ⟨-, -, hreaches⟩ := onGrid_spec h
  obtain ⟨-, hexponent⟩ := Binary64.exponent_bounds hfinite
  exact hreaches.lt (Binary64.mantissa_lt bits) (by omega) (by positivity) (by positivity)

/-! ### The shortest decimal -/

/-- A decimal below what is rounded to none, with a power of ten that is not large. -/
structure Moderate (d : Decimal) : Prop where
  digits_lt : d.digits * 10 ^ d.power.toNat < middle 970 * 10 ^ (-d.power).toNat
  power_ge : -342 ≤ d.power
  power_le : d.power ≤ 309
  /-- Zero is written without a power. -/
  power_eq_zero : d.digits = 0 → d.power = 0

theorem moderate_zero : Moderate ⟨0, 0⟩ where
  digits_lt := by
    rw [Nat.zero_mul]
    exact Nat.mul_pos (Binary64.middle_pos _) (by positivity)
  power_ge := by decide
  power_le := by decide
  power_eq_zero _ := rfl

theorem topPower_bounds (hfinite : isFinite bits = true) :
    -323 ≤ topPower bits ∧ topPower bits ≤ 309 := by
  obtain ⟨hlow, hhigh⟩ := Binary64.exponent_bounds hfinite
  have hlog : Nat.log2 (mantissa bits) < 53 := by
    rcases Nat.eq_zero_or_pos (mantissa bits) with hzero | hpos
    · rw [hzero]
      decide
    · exact (Nat.log2_lt (Nat.ne_of_gt hpos)).mpr (Binary64.mantissa_lt bits)
  simp only [topPower]
  omega

theorem moderate_shortest (hfinite : isFinite bits = true) : Moderate (shortest bits) := by
  rw [shortest]
  split
  · exact moderate_zero
  · rename_i hnonzero
    cases hfound : (List.range 20).findSome? fun (i : Nat) ↦ onGrid bits (topPower bits - i) with
    | none => exact moderate_zero
    | some d =>
      obtain ⟨i, hi, hgrid⟩ := List.exists_of_findSome?_eq_some hfound
      have hbound := List.mem_range.mp hi
      obtain ⟨hlow, hhigh⟩ := topPower_bounds hfinite
      obtain ⟨hpower, hpos, -⟩ := onGrid_spec hgrid
      have hdigit := hpos (Binary64.mantissa_pos (Bool.eq_false_iff.mpr hnonzero))
      have hdigits := digits_lt_middle hfinite hgrid
      rw [← hpower] at hdigits
      rw [Option.getD_some]
      exact ⟨hdigits, by omega, by omega, fun hzero ↦ by omega⟩

theorem lt_pow_ten {digits p q e : Nat} (h : digits * 10 ^ p < middle e * 10 ^ q) :
    digits < 10 ^ (54 + e + q) := by
  calc digits ≤ digits * 10 ^ p := Nat.le_mul_of_pos_right _ (by positivity)
    _ < middle e * 10 ^ q := h
    _ ≤ 10 ^ (54 + e) * 10 ^ q := Nat.mul_le_mul_right _ (Binary64.middle_le_pow_ten e)
    _ = 10 ^ (54 + e + q) := (pow_add 10 (54 + e) q).symm

/-- The digits are not many. -/
theorem Moderate.length_digits_le (h : Moderate d) :
    (Nat.toDigits 10 d.digits).length ≤ 1366 := by
  have hpower := h.power_ge
  have hlength := (Nat.length_toDigits_le_iff (by decide) (by omega)).mpr (lt_pow_ten h.digits_lt)
  omega

end Decimal

end TypedPacket
