import LayerQuery.Number.Reading
import LayerQuery.Proofs.Nearest
import Mathlib.Algebra.Order.Field.Power
import Mathlib.Data.Rat.Cast.Order
import Mathlib.Tactic.FieldSimp
import Mathlib.Tactic.Positivity
/-!
# What a numeral is worth

A numeral has an exact value, a rational number, whatever it is spelled
like (`Numeral.value`). A number of the format is what the value is
rounded to if it is the nearest one, the even one of two, or an infinity
where the nearest magnitude is beyond the format (`Numeral.IsRoundedTo`).
That is what the library makes of every numeral (`isRoundedTo_ofNumeral`),
including those that it decides by their digits alone. Whoever rounds so
keeps the small integers, however they are spelled, and the order.
-/

namespace LayerQuery

/-! ## Exact values -/

/-- The value of a decimal. -/
def Decimal.value (d : Decimal) : ℚ :=
  d.coefficient * 10 ^ d.exponent

/-- The value that a numeral spells: the whole part and the fraction, scaled by the exponent if
there is one. -/
def Numeral.value (n : Numeral) : ℚ :=
  (if n.negative then -1 else 1) *
    ((n.whole + Digit.value n.fraction / 10 ^ n.fraction.length) * 10 ^ n.exponent.getD 0)

theorem cast_tenPow (k : Nat) : (tenPow k : ℚ) = 10 ^ k := by
  exact_mod_cast rfl

namespace Decimal

theorem value_nonneg (d : Decimal) : 0 ≤ d.value := by
  unfold value
  positivity

theorem value_ofNat (c k : Nat) : value ⟨c, .ofNat k⟩ = (c * tenPow k : Nat) := by
  rw [value, Int.ofNat_eq_natCast, zpow_natCast, Nat.cast_mul, cast_tenPow]

theorem value_negSucc (c k : Nat) : value ⟨c, .negSucc k⟩ = c / (tenPow (k + 1) : Nat) := by
  rw [value, zpow_negSucc, cast_tenPow, div_eq_mul_inv]

end Decimal

/-- **A numeral is worth its magnitude**, and less than nothing with a
minus sign. -/
theorem Numeral.value_eq (n : Numeral) :
    n.value = (if n.negative then -1 else 1) * n.magnitude.value := by
  have hten : (10 : ℚ) ≠ 0 := by norm_num
  rw [value, Decimal.value, magnitude, zpow_sub₀ hten, zpow_natCast, Nat.cast_add, Nat.cast_mul,
    cast_tenPow]
  congr 1
  field_simp

namespace Numeral

variable {n : Numeral}

theorem abs_value (n : Numeral) : |n.value| = n.magnitude.value := by
  rw [value_eq]
  cases n.negative with
  | false => rw [if_neg Bool.false_ne_true, one_mul, abs_of_nonneg n.magnitude.value_nonneg]
  | true => rw [if_pos rfl, neg_one_mul, abs_neg, abs_of_nonneg n.magnitude.value_nonneg]

theorem cast_signed (negative : Bool) (k : Nat) :
    (signed negative k : ℚ) = (if negative then -1 else 1) * k := by
  cases negative with
  | false => rw [signed, if_neg Bool.false_ne_true, if_neg Bool.false_ne_true, one_mul,
      Int.cast_natCast]
  | true => rw [signed, if_pos rfl, if_pos rfl, neg_one_mul, Int.cast_neg, Int.cast_natCast]

/-- A numeral that is worth an integer has its magnitude and its sign. -/
theorem magnitude_and_sign_of_value_eq {m : Int} (h : n.value = m) :
    n.magnitude.value = m.natAbs ∧ signed n.negative m.natAbs = m := by
  have hmagnitude : n.magnitude.value = m.natAbs := by
    rw [← abs_value, h, Nat.cast_natAbs, Int.cast_abs]
  refine ⟨hmagnitude, Int.cast_injective (α := ℚ) ?_⟩
  rw [cast_signed, ← hmagnitude, ← value_eq, h]

end Numeral

namespace Decimal

variable {d : Decimal}

/-- The leading digit tells the size. -/
theorem zpow_leading_le (h : d.coefficient ≠ 0) : (10 : ℚ) ^ d.leading ≤ d.value := by
  have hten : (10 : ℚ) ≠ 0 := by norm_num
  obtain ⟨places, hplaces⟩ : ∃ places, decimalLength d.coefficient = places + 1 :=
    Nat.exists_eq_succ_of_ne_zero (decimalLength_pos _).ne'
  have hleading : d.leading = places + d.exponent := by
    rw [leading, hplaces]
    push_cast
    ring
  have hlow : tenPow places ≤ d.coefficient := by
    rcases Nat.eq_zero_or_pos places with rfl | hpos
    · exact Nat.one_le_iff_ne_zero.mpr h
    · refine Nat.not_lt.mp fun hlt => ?_
      have := (decimalLength_le_iff hpos).mpr hlt
      omega
  rw [hleading, zpow_add₀ hten, zpow_natCast, ← cast_tenPow, value]
  exact mul_le_mul_of_nonneg_right (Nat.cast_le.mpr hlow) (by positivity)

theorem value_lt_zpow_leading (d : Decimal) : d.value < 10 ^ (d.leading + 1) := by
  have hten : (10 : ℚ) ≠ 0 := by norm_num
  have hleading : d.leading + 1 = decimalLength d.coefficient + d.exponent := by
    rw [leading]
    ring
  have hhigh : d.coefficient < tenPow (decimalLength d.coefficient) :=
    (decimalLength_le_iff (decimalLength_pos _)).mp (Nat.le_refl _)
  rw [hleading, zpow_add₀ hten, zpow_natCast, ← cast_tenPow, value]
  exact mul_lt_mul_of_pos_right (Nat.cast_lt.mpr hhigh) (by positivity)

end Decimal

namespace Binary64

/-! ## Rounding decimals -/

/-- The fraction of units that is rounded for a decimal within the
format. -/
theorem exists_fraction (d : Decimal) :
    ∃ numerator denominator : Nat, 0 < denominator ∧
      d.value * unitsOfOne = numerator / denominator ∧
      (d.coefficient ≠ 0 → -400 ≤ d.leading → d.leading ≤ 400 →
        rankOfDecimal d = nearestRank numerator denominator) := by
  obtain ⟨c, e⟩ := d
  cases e with
  | ofNat k =>
    refine ⟨c * tenPow k * unitsOfOne, 1, Nat.one_pos, ?_, rankOfDecimal_eq⟩
    rw [Decimal.value_ofNat, Nat.cast_one, div_one, Nat.cast_mul (c * tenPow k)]
  | negSucc k =>
    refine ⟨c * unitsOfOne, tenPow (k + 1), tenPow_pos _, ?_, rankOfDecimal_eq⟩
    rw [Decimal.value_negSucc, Nat.cast_mul, div_mul_eq_mul_div]

/-- Decimals with too many digits before the point are beyond the
format. -/
theorem count_le_of_leading {d : Decimal} {rank : Nat} (hcoefficient : d.coefficient ≠ 0)
    (hlarge : 400 < d.leading) (h : IsNearestTo rank (d.value * unitsOfOne)) : count ≤ rank := by
  have hlimit : units count ≤ tenPow 401 * unitsOfOne := by decide +kernel
  have hsize : ((tenPow 401 : Nat) : ℚ) ≤ d.value := by
    rw [cast_tenPow, ← zpow_natCast]
    exact (zpow_le_zpow_right₀ (by norm_num) hlarge).trans (Decimal.zpow_leading_le hcoefficient)
  refine (isNearestTo_units count).mono h ?_
  calc (units count : ℚ) ≤ (tenPow 401 * unitsOfOne : Nat) := Nat.cast_le.mpr hlimit
    _ = (tenPow 401 : Nat) * (unitsOfOne : Nat) := Nat.cast_mul ..
    _ ≤ d.value * unitsOfOne := mul_le_mul_of_nonneg_right hsize (Nat.cast_nonneg _)

/-- And those with too many noughts behind it are nearest to nought. -/
theorem isNearestTo_zero_of_leading {d : Decimal} (hsmall : d.leading < -400) :
    IsNearestTo 0 (d.value * unitsOfOne) := by
  have hlimit : 2 * unitsOfOne < tenPow 400 := by decide +kernel
  have hten : (0 : ℚ) < (tenPow 400 : Nat) := Nat.cast_pos.mpr (tenPow_pos 400)
  have hzero : ((units 0 : Nat) : ℚ) = 0 := Nat.cast_zero
  have hunit : ((units (0 + 1) : Nat) : ℚ) = 1 := Nat.cast_one
  have hsize : d.value < 1 / (tenPow 400 : Nat) := by
    rw [cast_tenPow, ← zpow_natCast, one_div, ← zpow_neg]
    exact d.value_lt_zpow_leading.trans_le (zpow_le_zpow_right₀ (by norm_num) hsmall)
  refine isNearestTo_lower ?_ (.inl ?_)
  · rw [hzero]
    exact mul_nonneg d.value_nonneg (Nat.cast_nonneg _)
  · rw [hzero, hunit, zero_add]
    calc 2 * (d.value * unitsOfOne) = d.value * (2 * unitsOfOne : Nat) := by
          rw [Nat.cast_mul, Nat.cast_ofNat]
          ring
      _ ≤ d.value * (tenPow 400 : Nat) :=
        mul_le_mul_of_nonneg_left (Nat.cast_le.mpr hlimit.le) d.value_nonneg
      _ < 1 := (lt_div_iff₀ hten).mp hsize

/-- **A decimal is rounded to the nearest**, or beyond the format if the
nearest magnitude is there. -/
theorem exists_isNearestTo_value (d : Decimal) :
    ∃ rank, IsNearestTo rank (d.value * unitsOfOne) ∧
      (rankOfDecimal d = rank ∨ count ≤ rankOfDecimal d ∧ count ≤ rank) := by
  obtain ⟨numerator, denominator, hpos, hvalue, hwithin⟩ := exists_fraction d
  have hnearest : IsNearestTo (nearestRank numerator denominator) (d.value * unitsOfOne) :=
    hvalue ▸ isNearestTo_nearestRank numerator hpos
  by_cases hcoefficient : d.coefficient = 0
  · have hnothing : d.value * unitsOfOne = (units 0 : Nat) := by
      rw [Decimal.value, hcoefficient, Nat.cast_zero, zero_mul, zero_mul]
      exact Nat.cast_zero.symm
    refine ⟨0, ?_, .inl (if_pos hcoefficient)⟩
    rw [hnothing]
    exact isNearestTo_units 0
  -- the decimals that are decided by their digits
  by_cases hlarge : 400 < d.leading
  · have hrank : rankOfDecimal d = count := (if_neg hcoefficient).trans (if_pos hlarge)
    exact ⟨_, hnearest, .inr ⟨hrank.ge, count_le_of_leading hcoefficient hlarge hnearest⟩⟩
  by_cases hsmall : d.leading < -400
  · have hrank : rankOfDecimal d = 0 :=
      (if_neg hcoefficient).trans ((if_neg hlarge).trans (if_pos hsmall))
    exact ⟨0, isNearestTo_zero_of_leading hsmall, .inl hrank⟩
  · exact ⟨_, hnearest, .inl (hwithin hcoefficient (not_lt.mp hsmall) (not_lt.mp hlarge))⟩

end Binary64

/-! ## Rounding numerals -/

namespace Numeral

open Binary64

/-- A number of the format is what the value of a numeral is rounded to: the nearest magnitude, the
even one of two, with the sign of the numeral, or an infinity if that magnitude is beyond the
format. -/
inductive IsRoundedTo (n : Numeral) : Binary64 → Prop
  | finite {rank : Fin count} (h : IsNearestTo rank (|n.value| * unitsOfOne)) :
    n.IsRoundedTo (.finite n.negative rank)
  | infinite {rank : Nat} (hcount : count ≤ rank) (h : IsNearestTo rank (|n.value| * unitsOfOne)) :
    n.IsRoundedTo (.infinite n.negative)

/-- **The library rounds every numeral correctly.** -/
theorem isRoundedTo_ofNumeral (n : Numeral) : n.IsRoundedTo (Binary64.ofNumeral n) := by
  obtain ⟨rank, hnearest, hrank⟩ := exists_isNearestTo_value n.magnitude
  rw [← n.abs_value] at hnearest
  rw [ofNumeral, ofDecimal, ofRank]
  split
  · next hlt =>
    obtain rfl := hrank.resolve_right fun h => absurd hlt (not_lt.mpr h.1)
    exact .finite hnearest
  · next hge =>
    refine .infinite ?_ hnearest
    rcases hrank with rfl | h
    · exact not_lt.mp hge
    · exact h.2

end Numeral

end LayerQuery
