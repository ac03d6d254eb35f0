import Mathlib.Algebra.Order.Field.Power
import Mathlib.Data.Rat.Cast.Order
import Mathlib.Tactic.FieldSimp
import Mathlib.Tactic.Linarith
import Mathlib.Tactic.NormNum
import Mathlib.Tactic.Ring
import TypedPacket.Number.Binary64

/-!
# Decimals that have a nearest binary number

A positive quotient has a nearest finite pattern if it is below the middle between the largest of
them and the next power of two (`exists_nearest`): the exponent is chosen so that the mantissa fits
in 53 bits (`chosen_spec`), and at the largest exponent the last half of it is out of reach
(`scaled_middle`).
-/

set_option autoImplicit false
set_option relaxedAutoImplicit false

namespace TypedPacket.Binary64

/-! ### Patterns that are finite -/

theorem exponentField_eq (bits : UInt64) :
    exponentField bits = (bits.toNat >>> 52) &&& 0x7FF := by
  rw [exponentField, UInt64.toNat_and, UInt64.toNat_shiftRight]
  rfl

theorem isFinite_ofNat {n : Nat} (hn : n < 0x7FF * 2 ^ 52) : isFinite (UInt64.ofNat n) = true := by
  have hfield : exponentField (UInt64.ofNat n) = n / 2 ^ 52 % 2 ^ 11 := by
    rw [exponentField_eq, UInt64.toNat_ofNat', Nat.mod_eq_of_lt (by omega),
      Nat.shiftRight_eq_div_pow]
    exact Nat.and_two_pow_sub_one_eq_mod _ 11
  rw [isFinite, bne_iff_ne, hfield]
  omega

/-- The sign is no part of the exponent. -/
theorem isFinite_negate (bits : UInt64) : isFinite (negate bits) = isFinite bits := by
  have hfield : exponentField (negate bits) = exponentField bits := by
    rw [exponentField_eq, exponentField_eq, negate, UInt64.toNat_xor,
      Nat.shiftRight_xor_distrib, Nat.and_xor_distrib_right]
    exact Nat.xor_zero _
  rw [isFinite, isFinite, hfield]

/-! ### Rounding -/

/-- What is below the middle behind a number is not rounded beyond it. -/
theorem roundDiv_le {num den most : Nat} (hden : 0 < den)
    (h : 2 * num < (2 * most + 1) * den) : roundDiv num den ≤ most := by
  have hparts := Nat.div_add_mod num den
  have hmod := Nat.mod_lt num hden
  have hfloor : num / den ≤ most := by
    refine Nat.le_of_lt_succ ((Nat.div_lt_iff_lt_mul hden).mpr ?_)
    rw [Nat.succ_mul]
    rw [Nat.add_mul, Nat.mul_assoc, Nat.one_mul] at h
    omega
  have htop : num / den = most → 2 * (num % den) < den := by
    intro heq
    rw [heq] at hparts
    rw [Nat.add_mul, Nat.mul_assoc, Nat.one_mul, Nat.mul_comm most den] at h
    omega
  simp only [roundDiv]
  split_ifs <;> omega

/-! ### Scaling -/

variable {num den : Nat}

theorem scaled_snd_pos (hden : 0 < den) (num : Nat) (q : Int) : 0 < (scaled num den q).2 :=
  Nat.mul_pos hden (Nat.pow_pos (by decide))

/-- A scaled quotient is compared as the quotient with the scaled bound. -/
theorem scaled_lt_iff (hden : 0 < den) (q : Int) (bound : Nat) :
    (scaled num den q).1 < bound * (scaled num den q).2 ↔
      (num : ℚ) / den < bound * (2 : ℚ) ^ q := by
  have hden' : (0 : ℚ) < den := by exact_mod_cast hden
  rw [div_lt_iff₀ hden', ← @Nat.cast_lt ℚ]
  simp only [scaled, Nat.cast_mul, Nat.cast_pow, Nat.cast_ofNat]
  rcases Int.le_total 0 q with hq | hq
  · obtain ⟨m, rfl⟩ := Int.eq_ofNat_of_zero_le hq
    have hbound : (bound : ℚ) * (2 : ℚ) ^ (m : Int) * den = bound * (den * 2 ^ m) := by
      rw [zpow_natCast]
      ring
    have hneg : (-(m : Int)).toNat = 0 := by omega
    rw [hbound, hneg, Int.toNat_natCast, pow_zero, mul_one]
  · obtain ⟨m, hm⟩ := Int.eq_ofNat_of_zero_le (Int.neg_nonneg_of_nonpos hq)
    obtain rfl : q = -(m : Int) := by omega
    have hpower : (0 : ℚ) < 2 ^ m := by positivity
    have hbound : (bound : ℚ) * (2 : ℚ) ^ (-(m : Int)) * den = bound * den / 2 ^ m := by
      rw [zpow_neg, zpow_natCast]
      field_simp
    have hpos : (-(m : Int)).toNat = 0 := by omega
    rw [hbound, lt_div_iff₀ hpower, neg_neg, Int.toNat_natCast, hpos, pow_zero, mul_one]

/-! A quotient lies between the powers of two that the logarithms tell. -/

theorem quotient_lt (num : Nat) (hden : 0 < den) :
    (num : ℚ) / den < (2 : ℚ) ^ ((Nat.log2 num : Int) - Nat.log2 den + 1) := by
  have hden' : (0 : ℚ) < den := by exact_mod_cast hden
  have hupper : (num : ℚ) < 2 ^ (Nat.log2 num + 1) := by exact_mod_cast Nat.lt_log2_self
  have hlower : (2 : ℚ) ^ Nat.log2 den ≤ den := by exact_mod_cast Nat.log2_self_le hden.ne'
  rw [div_lt_iff₀ hden']
  calc (num : ℚ) < 2 ^ (Nat.log2 num + 1) := hupper
    _ = (2 : ℚ) ^ ((Nat.log2 num : Int) - Nat.log2 den + 1) * 2 ^ Nat.log2 den := by
      rw [← zpow_natCast, ← zpow_natCast, ← zpow_add₀ two_ne_zero]
      congr 1
      omega
    _ ≤ (2 : ℚ) ^ ((Nat.log2 num : Int) - Nat.log2 den + 1) * den := by gcongr

theorem lt_quotient (hnum : 0 < num) (hden : 0 < den) :
    (2 : ℚ) ^ ((Nat.log2 num : Int) - Nat.log2 den - 1) < (num : ℚ) / den := by
  have hden' : (0 : ℚ) < den := by exact_mod_cast hden
  have hupper : (den : ℚ) < 2 ^ (Nat.log2 den + 1) := by exact_mod_cast Nat.lt_log2_self
  have hlower : (2 : ℚ) ^ Nat.log2 num ≤ num := by exact_mod_cast Nat.log2_self_le hnum.ne'
  rw [lt_div_iff₀ hden']
  calc (2 : ℚ) ^ ((Nat.log2 num : Int) - Nat.log2 den - 1) * den
      < (2 : ℚ) ^ ((Nat.log2 num : Int) - Nat.log2 den - 1) * 2 ^ (Nat.log2 den + 1) := by gcongr
    _ = 2 ^ Nat.log2 num := by
      rw [← zpow_natCast, ← zpow_natCast, ← zpow_add₀ two_ne_zero]
      congr 1
      omega
    _ ≤ num := hlower

/-! ### The nearest pattern -/

/-- The middle between the largest mantissa at the exponent `e + 1` and the next power of two. -/
@[irreducible] def middle (e : Nat) : Nat := (2 ^ 54 - 1) * 2 ^ e

theorem middle_pos (e : Nat) : 0 < middle e := by
  rw [middle]
  positivity

theorem middle_le_pow_ten (e : Nat) : middle e ≤ 10 ^ (54 + e) := by
  rw [middle]
  calc (2 ^ 54 - 1) * 2 ^ e ≤ 2 ^ 54 * 2 ^ e := Nat.mul_le_mul_right _ (by decide)
    _ = 2 ^ (54 + e) := (pow_add 2 54 e).symm
    _ ≤ 10 ^ (54 + e) := Nat.pow_le_pow_left (by decide) _

theorem middle_le (e : Nat) : (middle e : ℚ) ≤ (2 : ℚ) ^ ((54 + e : Nat) : Int) := by
  rw [middle, zpow_natCast, pow_add]
  push_cast
  gcongr
  norm_num

/-- The exponent that `nearest` chooses. -/
def chosen (num den : Nat) : Int :=
  let guess : Int := max ((Nat.log2 num : Int) - Nat.log2 den - 53) (-1074)
  let trial := scaled num den guess
  if trial.1 / trial.2 < 2 ^ 53 then guess else guess + 1

theorem nearest_eq (num den : Nat) :
    nearest num den =
      let fraction := scaled num den (chosen num den)
      let bits := (chosen num den + 1074).toNat * 2 ^ 52 + roundDiv fraction.1 fraction.2
      if bits < 0x7FF * 2 ^ 52 then some (UInt64.ofNat bits) else none := rfl

/-- The scaled quotient fits in 53 bits, and the exponent is one of a pattern. -/
theorem chosen_spec (hnum : 0 < num) (hden : 0 < den)
    (h : (num : ℚ) / den < (2 : ℚ) ^ (1024 : Int)) :
    -1074 ≤ chosen num den ∧ chosen num den ≤ 971 ∧
      (num : ℚ) / den < (2 ^ 53 : Nat) * (2 : ℚ) ^ chosen num den := by
  have hupper := quotient_lt num hden
  have hlower := lt_quotient hnum hden
  have hlog : (Nat.log2 num : Int) - Nat.log2 den - 1 < 1024 :=
    (zpow_lt_zpow_iff_right₀ (by norm_num : (1 : ℚ) < 2)).mp (hlower.trans h)
  generalize hguess : max ((Nat.log2 num : Int) - Nat.log2 den - 53) (-1074) = guess
  have htrial : (scaled num den guess).1 / (scaled num den guess).2 < 2 ^ 53 ↔
      (num : ℚ) / den < (2 ^ 53 : Nat) * (2 : ℚ) ^ guess := by
    rw [Nat.div_lt_iff_lt_mul (scaled_snd_pos hden num guess), scaled_lt_iff hden]
  have hchosen : chosen num den =
      if (scaled num den guess).1 / (scaled num den guess).2 < 2 ^ 53 then guess
      else guess + 1 := by
    rw [← hguess]
    rfl
  rw [hchosen]
  have hpow : ∀ q : Int, ((2 ^ 53 : Nat) : ℚ) * (2 : ℚ) ^ q = (2 : ℚ) ^ (q + 53) := by
    intro q
    rw [zpow_add₀ two_ne_zero, mul_comm]
    norm_num
  split_ifs with hsmall
  · refine ⟨by omega, by omega, htrial.mp hsmall⟩
  · rw [htrial, hpow] at hsmall
    have hbelow : (num : ℚ) / den < (2 : ℚ) ^ (guess + 1 + 53) := by
      refine hupper.trans_le (zpow_le_zpow_right₀ (by norm_num) ?_)
      omega
    have hguess' : guess + 53 < 1024 :=
      (zpow_lt_zpow_iff_right₀ (by norm_num : (1 : ℚ) < 2)).mp ((not_lt.mp hsmall).trans_lt h)
    exact ⟨by omega, by omega, by rw [hpow]; exact hbelow⟩

/-- Below the middle, half of the last mantissa is out of reach. -/
theorem scaled_middle {e : Nat} (h : num < middle e * den) :
    2 * (scaled num den (e + 1)).1 < (2 * (2 ^ 53 - 1) + 1) * (scaled num den (e + 1)).2 := by
  have hneg : (-((e : Int) + 1)).toNat = 0 := by omega
  have hpos : ((e : Int) + 1).toNat = e + 1 := by omega
  rw [scaled, hneg, hpos, pow_zero, mul_one, pow_succ]
  calc 2 * num < 2 * (middle e * den) := by omega
    _ = (2 * (2 ^ 53 - 1) + 1) * (den * (2 ^ e * 2)) := by
      rw [middle]
      ring

/-- A quotient below the middle at the largest exponent has a nearest number. -/
theorem exists_nearest (hnum : 0 < num) (hden : 0 < den) (h : num < middle 970 * den) :
    ∃ bits, nearest num den = some bits ∧ isFinite bits = true := by
  have hden' : (0 : ℚ) < den := by exact_mod_cast hden
  have hquotient : (num : ℚ) / den < (2 : ℚ) ^ (1024 : Int) := by
    refine lt_of_lt_of_le ?_ (middle_le 970)
    rw [div_lt_iff₀ hden']
    exact_mod_cast h
  obtain ⟨hlow, hhigh, hsmall⟩ := chosen_spec hnum hden hquotient
  rw [← scaled_lt_iff hden] at hsmall
  have hround : (chosen num den + 1074).toNat * 2 ^ 52 +
      roundDiv (scaled num den (chosen num den)).1 (scaled num den (chosen num den)).2 <
        0x7FF * 2 ^ 52 := by
    rcases Int.lt_or_eq_of_le hhigh with hlt | heq
    · have hmost : roundDiv (scaled num den (chosen num den)).1
          (scaled num den (chosen num den)).2 ≤ 2 ^ 53 :=
        roundDiv_le (scaled_snd_pos hden num _) (by omega)
      omega
    · have hlast : chosen num den = ((970 : Nat) : Int) + 1 := heq
      have hmost := roundDiv_le (scaled_snd_pos hden num _) (scaled_middle h)
      rw [← hlast] at hmost
      omega
  refine ⟨_, ?_, isFinite_ofNat hround⟩
  rw [nearest_eq]
  exact if_pos hround

end TypedPacket.Binary64
