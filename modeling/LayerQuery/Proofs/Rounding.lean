import LayerQuery.Proofs.Numerals
import Mathlib.Data.Nat.Log
import Mathlib.Tactic.Ring
/-!
# Numbers come back from their digits

Whatever decimal is written for a finite number, reading it gives that
number again (`ofNumeral_numeral`), in either spelling. The search for
few digits asks the reader about each candidate, so what is left to show
is that the decimal behind the search reads back (`rankOfDecimal_exact`),
and that the digits may be moved between coefficient and exponent on the
way to the paper: the reader sees the same quotient
(`rankOfDecimal_scale`), and a quotient is rounded alike however it is
written (`nearestRank_mul`).
-/

namespace LayerQuery

theorem twoPow_eq (n : Nat) : twoPow n = 2 ^ n := rfl

theorem twoPow_add (m n : Nat) : twoPow (m + n) = twoPow m * twoPow n := Nat.pow_add 2 m n

/-! ## Quotients -/

/-- Rounding sees the quotient alone. -/
theorem roundHalfEven_mul {k : Nat} (hk : 0 < k) (a b : Nat) :
    roundHalfEven (a * k) (b * k) = roundHalfEven a b := by
  have hdiv : a * k / (b * k) = a / b := Nat.mul_div_mul_right a b hk
  have htwice : 2 * (a * k % (b * k)) = 2 * (a % b) * k := by
    rw [Nat.mul_mod_mul_right, Nat.mul_assoc]
  have hlt (x y : Nat) : x * k < y * k ↔ x < y := Nat.mul_lt_mul_right hk
  simp only [roundHalfEven, hdiv, htwice, hlt]

/-- A quotient without rest is not changed. -/
theorem roundHalfEven_mul_self {b : Nat} (hb : 0 < b) (q : Nat) : roundHalfEven (q * b) b = q := by
  have hdiv : q * b / b = q := Nat.mul_div_cancel q hb
  have hmod : q * b % b = 0 := Nat.mul_mod_left q b
  simp only [roundHalfEven, hdiv, hmod]
  rw [if_pos (by omega)]

namespace Binary64

theorem nearestRank_mul {k : Nat} (hk : 0 < k) (a b : Nat) :
    nearestRank (a * k) (b * k) = nearestRank a b := by
  have hdiv : a * k / (b * k) = a / b := Nat.mul_div_mul_right a b hk
  have hdenominator (n : Nat) : b * k * twoPow n = b * twoPow n * k := by ring
  simp only [nearestRank, hdiv, hdenominator, roundHalfEven_mul hk]

theorem binade_eq : binade = 2 ^ 52 := rfl

/-- The first ranks are their own magnitude. -/
theorem units_of_lt {rank : Nat} (h : rank < 2 * binade) : units rank = rank := by
  have hbinade : 0 < binade := twoPow_pos 52
  have hquotient : rank / binade < 2 := Nat.div_lt_of_lt_mul (by omega)
  have hdoublings : rank / binade - 1 = 0 := by omega
  simp only [units, hdoublings, Nat.zero_mul, Nat.sub_zero, twoPow_zero, Nat.mul_one]

/-- Every later rank lies in a run of `2 ^ 52` whose magnitudes are
multiples of one power of two. -/
theorem exists_units_eq {rank : Nat} (h : 2 * binade ≤ rank) :
    ∃ doublings place, binade ≤ place ∧ place < 2 * binade ∧
      rank = doublings * binade + place ∧ units rank = place * twoPow doublings := by
  have hbinade : 0 < binade := twoPow_pos 52
  have hquotient : 2 ≤ rank / binade := (Nat.le_div_iff_mul_le hbinade).mpr h
  obtain ⟨doublings, hdoublings⟩ : ∃ d, rank / binade = d + 1 := ⟨rank / binade - 1, by omega⟩
  have hrank : (doublings + 1) * binade + rank % binade = rank := by
    rw [← hdoublings, Nat.mul_comm]
    exact Nat.div_add_mod rank binade
  have hmod : rank % binade < binade := Nat.mod_lt rank hbinade
  rw [Nat.add_mul, Nat.one_mul] at hrank
  refine ⟨doublings, rank - doublings * binade, by omega, by omega, by omega, ?_⟩
  simp only [units, hdoublings, Nat.add_sub_cancel]

/-- How a whole number of units is rounded whose run is known. -/
theorem nearestRank_eq {a doublings : Nat} (hlow : binade * twoPow doublings ≤ a)
    (hhigh : a < 2 * binade * twoPow doublings) :
    nearestRank a 1 = doublings * binade + roundHalfEven a (twoPow doublings) := by
  have hpos : 0 < binade * twoPow doublings := Nat.mul_pos (twoPow_pos 52) (twoPow_pos doublings)
  have hlog : a.log2 = 52 + doublings := by
    refine (Nat.log2_eq_iff (by omega)).mpr ⟨?_, ?_⟩
    · calc 2 ^ (52 + doublings) = binade * twoPow doublings := twoPow_add 52 doublings
        _ ≤ a := hlow
    · calc a < 2 * binade * twoPow doublings := hhigh
        _ = 2 ^ (52 + doublings + 1) := by rw [binade_eq, twoPow_eq]; ring
  simp only [nearestRank, Nat.div_one, hlog, Nat.add_sub_cancel_left, Nat.one_mul]

/-- **A magnitude of the format is rounded to itself.** -/
theorem nearestRank_units (rank : Nat) : nearestRank (units rank) 1 = rank := by
  rcases Nat.lt_or_ge rank (2 * binade) with h | h
  · -- among the first ranks there is nothing to scale
    have hlog : rank.log2 - 52 = 0 := by
      rcases Nat.eq_zero_or_pos rank with rfl | hpos
      · rfl
      · have hlt : rank < 2 ^ 53 := by rw [binade_eq] at h; omega
        have := (Nat.log2_lt (by omega)).mpr hlt
        omega
    have hself : roundHalfEven rank 1 = rank := by
      simpa only [Nat.mul_one] using roundHalfEven_mul_self Nat.one_pos rank
    simp only [units_of_lt h, nearestRank, Nat.div_one, hlog, Nat.zero_mul, Nat.zero_add,
      twoPow_zero, Nat.one_mul, hself]
  · obtain ⟨doublings, place, hlow, hhigh, hrank, hunits⟩ := exists_units_eq h
    have hstep := twoPow_pos doublings
    have hlow' := Nat.mul_le_mul_right (twoPow doublings) hlow
    have hhigh' := Nat.mul_lt_mul_of_pos_right hhigh hstep
    rw [hunits, nearestRank_eq hlow' hhigh', roundHalfEven_mul_self hstep]
    exact hrank.symm

theorem roundHalfEven_le (a b : Nat) : roundHalfEven a b ≤ a / b + 1 := by
  simp only [roundHalfEven]
  split
  · omega
  · split <;> omega

/-- How far up a whole number of units is rounded. -/
theorem nearestRank_le {a places : Nat} (h : a < twoPow (places + 53)) :
    nearestRank a 1 ≤ (places + 2) * binade := by
  rw [twoPow_eq] at h
  have hlog : a.log2 - 52 ≤ places := by
    rcases Nat.eq_zero_or_pos a with rfl | hpos
    · exact Nat.zero_le places
    · have := (Nat.log2_lt (by omega)).mpr h
      omega
  have hquotient : a / twoPow (a.log2 - 52) < 2 ^ 53 := by
    refine Nat.div_lt_of_lt_mul ?_
    calc a < 2 ^ (a.log2 + 1) := Nat.lt_log2_self
      _ ≤ 2 ^ (a.log2 - 52 + 53) := Nat.pow_le_pow_right (by omega) (by omega)
      _ = twoPow (a.log2 - 52) * 2 ^ 53 := by rw [Nat.pow_add, twoPow_eq]
  have hround : roundHalfEven a (twoPow (a.log2 - 52)) ≤ 2 * binade :=
    (roundHalfEven_le a _).trans hquotient
  have hruns := Nat.mul_le_mul_right binade hlog
  rw [nearestRank, Nat.div_one, Nat.one_mul, Nat.add_mul]
  exact Nat.add_le_add hruns hround

end Binary64

/-! ## Decimals -/

theorem decimalLength_le_iff {n k : Nat} (hk : 0 < k) : decimalLength n ≤ k ↔ n < tenPow k :=
  Nat.length_toDigits_le_iff (by omega) hk

theorem decimalLength_pos (n : Nat) : 0 < decimalLength n :=
  Nat.length_toDigits_pos

/-- A zero more at the end is a digit more. -/
theorem decimalLength_mul_ten {n : Nat} (hn : n ≠ 0) :
    decimalLength (n * 10) = decimalLength n + 1 := by
  have hbase : 10 ≤ n * 10 := by omega
  have hquotient : n * 10 / 10 = n := Nat.mul_div_cancel n (by omega)
  rw [decimalLength, Nat.toDigits_of_base_le (by omega) hbase, List.length_append, hquotient]
  rfl

namespace Decimal

/-- A zero at the end of the coefficient may stand in the exponent instead. -/
theorem leading_mul_ten {c : Nat} (hc : c ≠ 0) (e : Int) :
    leading ⟨c * 10, e⟩ = leading ⟨c, e + 1⟩ := by
  simp only [leading, decimalLength_mul_ten hc]
  omega

end Decimal

namespace Binary64

/-- The quotient that is rounded for a decimal within the format. -/
theorem rankOfDecimal_eq {d : Decimal} (hc : d.coefficient ≠ 0) (hlow : -400 ≤ d.leading)
    (hhigh : d.leading ≤ 400) :
    rankOfDecimal d = match d.exponent with
      | .ofNat k => nearestRank (d.coefficient * tenPow k * unitsOfOne) 1
      | .negSucc k => nearestRank (d.coefficient * unitsOfOne) (tenPow (k + 1)) := by
  have hsmall : ¬ 400 < d.leading := by omega
  have hlarge : ¬ d.leading < -400 := by omega
  exact (if_neg hc).trans ((if_neg hsmall).trans (if_neg hlarge))

theorem rankOfDecimal_mul_ten (c : Nat) (e : Int) :
    rankOfDecimal ⟨c * 10, e⟩ = rankOfDecimal ⟨c, e + 1⟩ := by
  rcases Nat.eq_zero_or_pos c with rfl | hc
  · rfl
  have hne : c ≠ 0 := by omega
  have hne' : c * 10 ≠ 0 := by omega
  have hleading := Decimal.leading_mul_ten hne e
  by_cases hhigh : 400 < Decimal.leading ⟨c, e + 1⟩
  · rw [rankOfDecimal, rankOfDecimal, if_neg hne', if_neg hne, hleading, if_pos hhigh, if_pos hhigh]
  by_cases hlow : Decimal.leading ⟨c, e + 1⟩ < -400
  · rw [rankOfDecimal, rankOfDecimal, if_neg hne', if_neg hne, hleading, if_neg hhigh, if_neg hhigh,
      if_pos hlow, if_pos hlow]
  rw [rankOfDecimal_eq hne' (by omega) (by omega), rankOfDecimal_eq hne (by omega) (by omega)]
  cases e with
  | ofNat k =>
    have hmove : c * 10 * tenPow k = c * tenPow (k + 1) := by rw [tenPow_succ]; ring
    change nearestRank (c * 10 * tenPow k * unitsOfOne) 1 =
      nearestRank (c * tenPow (k + 1) * unitsOfOne) 1
    rw [hmove]
  | negSucc k =>
    have hmove : c * 10 * unitsOfOne = c * unitsOfOne * 10 := by ring
    cases k with
    | zero =>
      change nearestRank (c * 10 * unitsOfOne) (1 * 10) = nearestRank (c * 1 * unitsOfOne) 1
      rw [hmove, Nat.mul_one, nearestRank_mul (by omega)]
    | succ k =>
      change nearestRank (c * 10 * unitsOfOne) (tenPow (k + 1) * 10) =
        nearestRank (c * unitsOfOne) (tenPow (k + 1))
      rw [hmove, nearestRank_mul (by omega)]

/-- **Digits may be moved between coefficient and exponent.** -/
theorem rankOfDecimal_scale (c k : Nat) (e : Int) :
    rankOfDecimal ⟨c * tenPow k, e⟩ = rankOfDecimal ⟨c, e + k⟩ := by
  induction k generalizing e with
  | zero => simp [tenPow_zero]
  | succ k ih =>
    have hmove : c * tenPow (k + 1) = c * tenPow k * 10 := by rw [tenPow_succ, Nat.mul_assoc]
    rw [hmove, rankOfDecimal_mul_ten, ih]
    congr 2
    push_cast
    ring

theorem rankOfDecimal_stripUpTo (fuel : Nat) (d : Decimal) :
    rankOfDecimal (Decimal.stripUpTo fuel d) = rankOfDecimal d := by
  induction fuel generalizing d with
  | zero => rfl
  | succ fuel ih =>
    rw [Decimal.stripUpTo]
    split
    · next h =>
      have hten : d.coefficient / 10 * 10 = d.coefficient := by omega
      rw [ih, ← rankOfDecimal_mul_ten, hten]
    · rfl

/-! ## The shortest decimal -/

/-- Each run of ranks doubles the bound on the magnitudes. -/
theorem units_le {rank runs : Nat} (h : rank < (runs + 2) * binade) :
    units rank ≤ 2 * binade * twoPow runs := by
  rcases Nat.lt_or_ge rank (2 * binade) with hlow | hlow
  · rw [units_of_lt hlow]
    exact hlow.le.trans (Nat.le_mul_of_pos_right _ (twoPow_pos runs))
  · obtain ⟨doublings, place, hle, hlt, hrank, hunits⟩ := exists_units_eq hlow
    have hruns : doublings ≤ runs := by
      have hbound : (doublings + 1) * binade < (runs + 2) * binade := by
        rw [Nat.add_mul, Nat.one_mul]
        omega
      have := Nat.lt_of_mul_lt_mul_right hbound
      omega
    rw [hunits]
    exact Nat.mul_le_mul hlt.le (Nat.pow_le_pow_right (by omega) hruns)

/-- Every rank but the first has a magnitude. -/
theorem units_pos {rank : Nat} (h : rank ≠ 0) : 0 < units rank := by
  rcases Nat.lt_or_ge rank (2 * binade) with hlow | hlow
  · rw [units_of_lt hlow]
    omega
  · obtain ⟨doublings, place, hle, -, -, hunits⟩ := exists_units_eq hlow
    rw [hunits]
    exact Nat.mul_pos ((twoPow_pos 52).trans_le hle) (twoPow_pos doublings)

/-- The leading digit of a decimal that is about as long as its places is
far from either end of the format, where digits are only counted. -/
theorem leading_bounds {c places : Nat} (hplaces : 399 < places)
    (hlow : tenPow (places - 399) ≤ c) (hhigh : c < tenPow (places + 402)) :
    -400 ≤ Decimal.leading ⟨c, .negSucc places⟩ ∧ Decimal.leading ⟨c, .negSucc places⟩ ≤ 400 := by
  have hlength : ¬ decimalLength c ≤ places - 399 := by
    rw [decimalLength_le_iff (by omega), Nat.not_lt]
    exact hlow
  have hlength' : decimalLength c ≤ places + 402 := by
    rw [decimalLength_le_iff (by omega)]
    exact hhigh
  have hleading : Decimal.leading ⟨c, .negSucc places⟩ = -(places + 1) + decimalLength c - 1 := rfl
  omega

/-- A magnitude is a decimal with as many places as one, in units, is a
power of two. -/
theorem rankOfDecimal_units {rank places power runs : Nat} (hpower : power = places + 1)
    (hone : unitsOfOne = twoPow power) (hne : rank ≠ 0) (hrank : rank < (runs + 2) * binade)
    (hplaces : 399 < places) (hlow : tenPow (places - 399) ≤ Nat.pow 5 power)
    (hhigh : 2 * binade * twoPow runs * Nat.pow 5 power < tenPow (places + 402)) :
    rankOfDecimal ⟨units rank * Nat.pow 5 power, .negSucc places⟩ = rank := by
  have hlower : tenPow (places - 399) ≤ units rank * Nat.pow 5 power :=
    hlow.trans (Nat.le_mul_of_pos_left _ (units_pos hne))
  have hupper : units rank * Nat.pow 5 power < tenPow (places + 402) :=
    (Nat.mul_le_mul_right _ (units_le hrank)).trans_lt hhigh
  have hcoefficient : units rank * Nat.pow 5 power ≠ 0 := ((tenPow_pos _).trans_le hlower).ne'
  obtain ⟨hleading, hleading'⟩ := leading_bounds hplaces hlower hupper
  have hscaled : units rank * Nat.pow 5 power * unitsOfOne = units rank * tenPow power := by
    have hten : Nat.pow 5 power * twoPow power = tenPow power := (Nat.mul_pow 5 2 power).symm
    rw [hone, Nat.mul_assoc, hten]
  have hquotient := nearestRank_mul (tenPow_pos power) (units rank) 1
  rw [Nat.one_mul] at hquotient
  calc rankOfDecimal ⟨units rank * Nat.pow 5 power, .negSucc places⟩
      = nearestRank (units rank * Nat.pow 5 power * unitsOfOne) (tenPow (places + 1)) :=
        rankOfDecimal_eq hcoefficient hleading hleading'
    _ = rank := by rw [← hpower, hscaled, hquotient, nearestRank_units]

theorem exact_eq (rank : Nat) : exact rank = ⟨units rank * Nat.pow 5 1074, .negSucc 1073⟩ := rfl

/-- **The decimal without rounding reads back.** -/
theorem rankOfDecimal_exact {rank : Nat} (h : rank < count) : rankOfDecimal (exact rank) = rank := by
  -- the powers are kept folded: written out they have hundreds of digits
  obtain ⟨power, hpower⟩ : ∃ power, power = 1074 := ⟨1074, rfl⟩
  have hone : unitsOfOne = twoPow power := by rw [hpower]; rfl
  have hlow : tenPow (1073 - 399) ≤ Nat.pow 5 power := by rw [hpower]; decide +kernel
  have hhigh : 2 * binade * twoPow 2045 * Nat.pow 5 power < tenPow (1073 + 402) := by
    rw [hpower]; decide +kernel
  have hcount : count = (2045 + 2) * binade := rfl
  rw [exact_eq, ← hpower]
  rcases eq_or_ne rank 0 with rfl | hne
  · have hunits : units 0 = 0 := rfl
    rw [hunits, Nat.zero_mul, rankOfDecimal, if_pos rfl]
  · rw [hcount] at h
    exact rankOfDecimal_units hpower hone hne h (by decide) hlow hhigh

/-- **The shortest decimal reads back**, whichever way ties go. -/
theorem rankOfDecimal_shortest (tie : Tie) {rank : Nat} (h : rank < count) :
    rankOfDecimal (shortest tie rank) = rank := by
  have hexact := rankOfDecimal_exact h
  simp only [shortest, Decimal.strip, rankOfDecimal_stripUpTo]
  generalize exact rank = whole at hexact ⊢
  generalize hfound : List.findSome? _ _ = found
  cases found with
  | none => exact hexact
  | some d =>
    obtain ⟨_, _, hd⟩ := List.exists_of_findSome?_eq_some hfound
    have hreads := List.find?_some hd
    exact beq_iff_eq.mp hreads

end Binary64

/-! ## On paper -/

theorem Digit.value_lastDigits (places n : Nat) :
    Digit.value (Digit.lastDigits places n) = n % tenPow places := by
  induction places generalizing n with
  | zero => simp [Digit.lastDigits, Digit.value, tenPow_zero, Nat.mod_one]
  | succ places ih =>
    have hsplit : n % (10 * tenPow places) = n % 10 + 10 * (n / 10 % tenPow places) := Nat.mod_mul
    rw [Digit.lastDigits, value_append_singleton, ih, tenPow_succ, Nat.mul_comm (tenPow places),
      hsplit]
    exact (congrArg (· + n % 10) (Nat.mul_comm _ 10)).trans (Nat.add_comm _ _)

namespace Numeral

open Binary64

/-- The digits before and after the point are those of the coefficient. -/
theorem magnitude_split (negative : Bool) (places c : Nat) (e : Option Int) :
    magnitude ⟨negative, c / tenPow places, Digit.lastDigits places c, e⟩ =
      ⟨c, e.getD 0 - places⟩ := by
  have hdigits : c / tenPow places * tenPow places + c % tenPow places = c := by
    rw [Nat.mul_comm]
    exact Nat.div_add_mod c (tenPow places)
  simp only [magnitude, Digit.length_lastDigits, Digit.value_lastDigits, hdigits]

/-- Without digits after the point there is the whole part alone. -/
theorem magnitude_of_fraction_eq_nil {n : Numeral} (h : n.fraction = []) :
    n.magnitude = ⟨n.whole, n.exponent.getD 0⟩ := by
  simp [magnitude, h, Digit.value, tenPow_zero]

theorem rankOfDecimal_positional (negative : Bool) (d : Decimal) :
    rankOfDecimal (positional negative d).magnitude = rankOfDecimal d := by
  obtain ⟨c, e⟩ := d
  cases e with
  | ofNat k =>
    have hmagnitude : (positional negative ⟨c, .ofNat k⟩).magnitude = ⟨c * tenPow k, 0⟩ :=
      magnitude_of_fraction_eq_nil rfl
    rw [hmagnitude, rankOfDecimal_scale, Int.zero_add]
    rfl
  | negSucc k =>
    simp only [positional, magnitude_split]
    congr 2

theorem rankOfDecimal_scientific (negative : Bool) (d : Decimal) :
    rankOfDecimal (scientific negative d).magnitude = rankOfDecimal d := by
  have hlength := decimalLength_pos d.coefficient
  simp only [scientific, magnitude_split]
  congr 2
  simp only [Option.getD_some, Decimal.leading]
  omega

end Numeral

namespace Spelling

open Binary64

theorem rankOfDecimal_point (n : Numeral) :
    rankOfDecimal (point n).magnitude = rankOfDecimal n.magnitude := by
  rw [point]
  split
  · next h =>
    have hfraction : n.fraction = [] := List.isEmpty_iff.mp h
    have hmagnitude := Numeral.magnitude_of_fraction_eq_nil hfraction
    have hpointed : Numeral.magnitude { n with fraction := [Digit.zero] } =
        ⟨n.whole * 10, n.exponent.getD 0 - 1⟩ := rfl
    rw [hmagnitude, hpointed, rankOfDecimal_mul_ten, Int.sub_add_cancel]
  · rfl

/-- **What is written for a rank is read as that rank.** -/
theorem rankOfDecimal_numeral (s : Spelling) (negative : Bool) {rank : Nat} (h : rank < count) :
    rankOfDecimal (s.numeral negative rank).magnitude = rank := by
  have hdecimal : rankOfDecimal (if rank = 0 then ⟨0, 0⟩ else shortest s.tie rank) = rank := by
    split
    · next hzero => rw [hzero]; rfl
    · exact rankOfDecimal_shortest s.tie h
  have hplain (d : Decimal) : rankOfDecimal (if s.pointed then point (.positional negative d)
      else .positional negative d).magnitude = rankOfDecimal d := by
    split
    · rw [rankOfDecimal_point, Numeral.rankOfDecimal_positional]
    · exact Numeral.rankOfDecimal_positional negative d
  simp only [numeral]
  generalize (if rank = 0 then (⟨0, 0⟩ : Decimal) else shortest s.tie rank) = d at hdecimal ⊢
  split
  · split
    · rw [Numeral.rankOfDecimal_scientific, hdecimal]
    · rw [hplain, hdecimal]
  · rw [hplain, hdecimal]

theorem negative_numeral (s : Spelling) (negative : Bool) (rank : Nat) :
    (s.numeral negative rank).negative = negative := by
  have hpoint (n : Numeral) : (point n).negative = n.negative := by rw [point]; split <;> rfl
  have hpositional (d : Decimal) : (Numeral.positional negative d).negative = negative := by
    rw [Numeral.positional]; split <;> rfl
  have hplain (d : Decimal) : (if s.pointed then point (.positional negative d)
      else .positional negative d).negative = negative := by
    split
    · rw [hpoint, hpositional]
    · exact hpositional d
  simp only [numeral]
  generalize (if rank = 0 then (⟨0, 0⟩ : Decimal) else shortest s.tie rank) = d
  split
  · split
    · rfl
    · exact hplain _
  · exact hplain _

end Spelling

namespace Binary64

/-- **A finite number comes back from its digits**, sign and all. -/
theorem ofNumeral_numeral (s : Spelling) (negative : Bool) (rank : Fin count) :
    ofNumeral (s.numeral negative rank) = .finite negative rank := by
  have hrank := s.rankOfDecimal_numeral negative rank.isLt
  rw [ofNumeral, ofDecimal, hrank, s.negative_numeral, ofRank, dif_pos rank.isLt]

/-- A whole number of few binary digits is within the format. -/
theorem rankOfDecimal_lt_count {c power places : Nat} (hone : unitsOfOne = twoPow power)
    (hplaces : 64 + power = places + 53) (hcount : (places + 2) * binade < count)
    (hc : c < twoPow 64) : rankOfDecimal ⟨c, 0⟩ < count := by
  rcases Nat.eq_zero_or_pos c with rfl | hpos
  · exact (Nat.zero_le _).trans_lt hcount
  have hten : twoPow 64 < tenPow 20 := by decide +kernel
  have hlength : decimalLength c ≤ 20 := (decimalLength_le_iff (by omega)).mpr (hc.trans hten)
  have hlength' := decimalLength_pos c
  have hleading : (⟨c, 0⟩ : Decimal).leading = (decimalLength c : Int) - 1 := by
    simp [Decimal.leading]
  have hunits : c * tenPow 0 * unitsOfOne < twoPow (places + 53) := by
    rw [tenPow_zero, Nat.mul_one, hone, ← hplaces, twoPow_eq (64 + power), Nat.pow_add]
    exact Nat.mul_lt_mul_of_pos_right hc (twoPow_pos power)
  have hrank : rankOfDecimal ⟨c, 0⟩ = nearestRank (c * tenPow 0 * unitsOfOne) 1 :=
    rankOfDecimal_eq (by exact hpos.ne') (by omega) (by omega)
  rw [hrank]
  exact (nearestRank_le hunits).trans_lt hcount

/-- An integer literal of a word of 64 bits is within the format. -/
theorem isFinite_ofNumeral {n : Numeral} (hfraction : n.fraction = []) (hexponent : n.exponent = none)
    (hwhole : n.whole < twoPow 64) : (ofNumeral n).isFinite = true := by
  have hmagnitude : n.magnitude = ⟨n.whole, 0⟩ := by
    rw [Numeral.magnitude_of_fraction_eq_nil hfraction, hexponent, Option.getD_none]
  have hcount : (1085 + 2) * binade < count := by decide +kernel
  have hrank := rankOfDecimal_lt_count rfl rfl hcount hwhole
  rw [ofNumeral, ofDecimal, hmagnitude, ofRank, dif_pos hrank]
  rfl

end Binary64

end LayerQuery
