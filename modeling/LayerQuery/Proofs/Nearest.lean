import LayerQuery.Proofs.Rounding
import Mathlib.Algebra.Order.Ring.Abs
import Mathlib.Data.Nat.Dist
import Mathlib.Data.Rat.Cast.Order
import Mathlib.Tactic.FieldSimp
import Mathlib.Tactic.Linarith
/-!
# Rounding is to the nearest

Magnitudes ascend with their ranks (`units_strictMono`), so there is one
that is nearest to a number of units, the even one of two
(`IsNearestTo`). The format rounds every fraction to it
(`isNearestTo_nearestRank`), and how the quotient is computed no longer
matters then: there is only one nearest rank, and a larger number has no
smaller one (`IsNearestTo.mono`).

For whole numbers of units all this can be said without fractions
(`IsNearest`). The whole numbers that are read as one number have no gap
between them (`rankOfNat_eq_of_between`). How many they are depends on
the size. Below `2 ^ 53` each whole number is a magnitude of its own
(`units_rankOfNat`) and is read as no other (`eq_of_rankOfNat_eq`).
Above, a magnitude is still a whole number (`exists_units_rankOfNat`),
and whatever lies closer to it than one part in `2 ^ 54` is read as it
(`nearestRank_of_near`).
-/

namespace LayerQuery

namespace Binary64

/-! ## The order of magnitudes -/

theorem units_of_place {place : Nat} (hlow : binade ≤ place) (hhigh : place < 2 * binade)
    (doublings : Nat) : units (doublings * binade + place) = place * twoPow doublings := by
  have hquotient : (doublings * binade + place) / binade = doublings + 1 :=
    Nat.div_eq_of_lt_le (by rw [Nat.succ_mul]; omega) (by rw [Nat.succ_mul, Nat.succ_mul]; omega)
  simp only [units, hquotient, Nat.add_sub_cancel, Nat.add_sub_cancel_left]

/-- The first run starts at nought, and the first magnitude of every
other run may be counted to the run before. -/
theorem units_of_run {doublings place : Nat} (hrun : doublings = 0 ∨ binade ≤ place)
    (hplace : place ≤ 2 * binade) :
    units (doublings * binade + place) = place * twoPow doublings := by
  have hbinade : 0 < binade := twoPow_pos 52
  rcases Nat.lt_or_ge place binade with hlow | hlow
  · obtain rfl : doublings = 0 := hrun.resolve_right (by omega)
    rw [Nat.zero_mul, Nat.zero_add, units_of_lt (by omega), twoPow_zero, Nat.mul_one]
  rcases hplace.eq_or_lt with rfl | hlt
  · have hnext : doublings * binade + 2 * binade = (doublings + 1) * binade + binade := by ring
    rw [hnext, units_of_place (Nat.le_refl _) (by omega), twoPow_succ]
    ring
  · exact units_of_place hlow hlt doublings

/-- Every rank has a place in a run; in all runs but the first, half of
the places are taken. -/
theorem exists_place (rank : Nat) : ∃ doublings place, place < 2 * binade ∧
    (doublings = 0 ∨ binade ≤ place) ∧ rank = doublings * binade + place ∧
      units rank = place * twoPow doublings := by
  rcases Nat.lt_or_ge rank (2 * binade) with h | h
  · exact ⟨0, rank, h, .inl rfl, by omega, by rw [units_of_lt h, twoPow_zero, Nat.mul_one]⟩
  · obtain ⟨doublings, place, hlow, hhigh, hrank, hunits⟩ := exists_units_eq h
    exact ⟨doublings, place, hhigh, .inr hlow, hrank, hunits⟩

/-- **The step to the next magnitude** is not less than one part in
`2 ^ 53` of it. -/
theorem exists_step (rank : Nat) : ∃ step, 0 < step ∧ units (rank + 1) = units rank + step ∧
    units (rank + 1) ≤ 2 * binade * step := by
  obtain ⟨doublings, place, hplace, hrun, rfl, hunits⟩ := exists_place rank
  have hplace' : place + 1 ≤ 2 * binade := hplace
  have hnext := units_of_run (hrun.imp_right Nat.le_succ_of_le) hplace'
  refine ⟨twoPow doublings, twoPow_pos doublings, ?_, ?_⟩
  · rw [Nat.add_assoc, hnext, hunits, Nat.succ_mul]
  · rw [Nat.add_assoc, hnext]
    exact Nat.mul_le_mul_right _ hplace'

/-- **Magnitudes ascend with their ranks.** -/
theorem units_strictMono : StrictMono units := by
  refine strictMono_nat_of_lt_succ fun rank => ?_
  obtain ⟨step, hpos, hnext, -⟩ := exists_step rank
  omega

/-! ## The nearest magnitude -/

/-- A rank is that of the magnitude nearest to a number of units, and it is even where another
magnitude is as near. The number need not be a whole one. -/
structure IsNearestTo (rank : Nat) (a : ℚ) : Prop where
  le : ∀ other, |(units rank : ℚ) - a| ≤ |(units other : ℚ) - a|
  even : ∀ other, other ≠ rank → |(units other : ℚ) - a| = |(units rank : ℚ) - a| → rank % 2 = 0

theorem cast_units_lt {rank rank' : Nat} (h : rank < rank') : (units rank : ℚ) < units rank' :=
  Nat.cast_lt.mpr (units_strictMono h)

section

variable {x y a : ℚ}

/-- The lower one of two numbers is nearer to what lies before their
middle. -/
theorem abs_sub_lt_abs_sub_iff (h : x < y) : |x - a| < |y - a| ↔ 2 * a < x + y := by
  have hdiff : (y - a) ^ 2 - (x - a) ^ 2 = (y - x) * (x + y - 2 * a) := by ring
  rw [← sq_lt_sq, ← sub_pos, hdiff, mul_pos_iff_of_pos_left (sub_pos.mpr h), sub_pos]

/-- And the upper one to what lies behind it. -/
theorem abs_sub_lt_abs_sub_iff' (h : x < y) : |y - a| < |x - a| ↔ x + y < 2 * a := by
  have hdiff : (x - a) ^ 2 - (y - a) ^ 2 = (y - x) * (2 * a - (x + y)) := by ring
  rw [← sq_lt_sq, ← sub_pos, hdiff, mul_pos_iff_of_pos_left (sub_pos.mpr h), sub_pos]

end

namespace IsNearestTo

variable {rank rank' : Nat} {a b : ℚ}

/-- **A larger number has no smaller rank nearest to it.** -/
theorem mono (h : IsNearestTo rank a) (h' : IsNearestTo rank' b) (hab : a ≤ b) : rank ≤ rank' := by
  by_contra hlt
  have hlt : rank' < rank := Nat.not_le.mp hlt
  have hunits := cast_units_lt hlt
  have hmiddle : (units rank' + units rank : ℚ) ≤ 2 * a :=
    not_lt.mp (mt (abs_sub_lt_abs_sub_iff hunits).mpr (not_lt.mpr (h.le rank')))
  have hmiddle' : 2 * b ≤ (units rank' + units rank : ℚ) :=
    not_lt.mp (mt (abs_sub_lt_abs_sub_iff' hunits).mpr (not_lt.mpr (h'.le rank)))
  -- the two numbers are one, and it is in the middle between the magnitudes
  obtain rfl : a = b := by linarith
  have hsame := le_antisymm (h'.le rank) (h.le rank')
  have heven := h.even rank' hlt.ne hsame
  have heven' := h'.even rank hlt.ne' hsame.symm
  -- so there is a rank between the two, and its magnitude is nearer
  have hbetween := cast_units_lt (Nat.lt_succ_self rank')
  have hbetween' : (units (rank' + 1) : ℚ) < units rank := cast_units_lt (by omega)
  have hnearer : |(units (rank' + 1) : ℚ) - a| < |(units rank : ℚ) - a| :=
    (abs_sub_lt_abs_sub_iff hbetween').mpr (by linarith)
  exact absurd (h.le (rank' + 1)) (not_le.mpr hnearer)

/-- **There is only one nearest rank.** -/
theorem unique (h : IsNearestTo rank a) (h' : IsNearestTo rank' a) : rank = rank' :=
  Nat.le_antisymm (h.mono h' (le_refl a)) (h'.mono h (le_refl a))

end IsNearestTo

/-- A magnitude is nearest to itself. -/
theorem isNearestTo_units (rank : Nat) : IsNearestTo rank (units rank) where
  le other := by
    rw [sub_self, abs_zero]
    exact abs_nonneg _
  even other hne hdist := by
    rw [sub_self, abs_zero, abs_eq_zero, sub_eq_zero, Nat.cast_inj] at hdist
    exact absurd (units_strictMono.injective hdist) hne

/-- It is enough that the number is not beyond the middle between the
magnitude and another one. -/
theorem isNearestTo_of_middle {rank : Nat} {a : ℚ}
    (hbelow : ∀ other, other < rank → (units other + units rank : ℚ) < 2 * a ∨
      (units other + units rank : ℚ) = 2 * a ∧ rank % 2 = 0)
    (habove : ∀ other, rank < other → 2 * a < (units rank + units other : ℚ) ∨
      2 * a = (units rank + units other : ℚ) ∧ rank % 2 = 0) : IsNearestTo rank a where
  le other := by
    rcases Nat.lt_trichotomy other rank with hlt | rfl | hlt
    · rw [← not_lt, abs_sub_lt_abs_sub_iff (cast_units_lt hlt), not_lt]
      exact (hbelow other hlt).elim le_of_lt fun h => h.1.le
    · exact le_refl _
    · rw [← not_lt, abs_sub_lt_abs_sub_iff' (cast_units_lt hlt), not_lt]
      exact (habove other hlt).elim le_of_lt fun h => h.1.le
  even other hne hdist := by
    rcases Nat.lt_or_gt_of_ne hne with hlt | hlt
    · refine (hbelow other hlt).elim (fun h => ?_) And.right
      exact absurd ((abs_sub_lt_abs_sub_iff' (cast_units_lt hlt)).mpr h) (not_lt.mpr hdist.le)
    · refine (habove other hlt).elim (fun h => ?_) And.right
      exact absurd ((abs_sub_lt_abs_sub_iff (cast_units_lt hlt)).mpr h) (not_lt.mpr hdist.le)

section

variable {rank : Nat} {a : ℚ}

/-- Of the two magnitudes around a number the lower one is the nearest in
the lower half. -/
theorem isNearestTo_lower (hlow : units rank ≤ a)
    (hhalf : 2 * a < (units rank + units (rank + 1) : ℚ) ∨
      2 * a = (units rank + units (rank + 1) : ℚ) ∧ rank % 2 = 0) : IsNearestTo rank a := by
  refine isNearestTo_of_middle (fun other hlt => .inl ?_) (fun other hlt => ?_)
  · have hunits := cast_units_lt hlt
    linarith
  · rcases (Nat.succ_le_of_lt hlt).eq_or_lt with rfl | hlt
    · exact hhalf
    · have hunits : (units (rank + 1) : ℚ) < units other := cast_units_lt hlt
      exact .inl (hhalf.elim (fun h => by linarith) fun h => by linarith [h.1])

/-- And the upper one in the upper half. -/
theorem isNearestTo_upper (hhigh : a ≤ units (rank + 1))
    (hhalf : (units rank + units (rank + 1) : ℚ) < 2 * a ∨
      (units rank + units (rank + 1) : ℚ) = 2 * a ∧ (rank + 1) % 2 = 0) :
    IsNearestTo (rank + 1) a := by
  refine isNearestTo_of_middle (fun other hlt => ?_) (fun other hlt => .inl ?_)
  · rcases (Nat.le_of_lt_succ hlt).eq_or_lt with rfl | hlt
    · exact hhalf
    · have hunits : (units other : ℚ) < units rank := cast_units_lt hlt
      exact .inl (hhalf.elim (fun h => by linarith) fun h => by linarith [h.1])
  · have hunits := cast_units_lt hlt
    linarith

end

/-- The run that a number of units is rounded in. -/
theorem run_bounds (a : Nat) :
    (a.log2 - 52 = 0 ∨ binade * twoPow (a.log2 - 52) ≤ a) ∧
      a < 2 * binade * twoPow (a.log2 - 52) := by
  rcases Nat.lt_or_ge a.log2 52 with hlog | hlog
  · have hzero : a.log2 - 52 = 0 := by omega
    refine ⟨.inl hzero, ?_⟩
    rw [hzero, twoPow_zero, Nat.mul_one]
    calc a < 2 ^ (a.log2 + 1) := Nat.lt_log2_self
      _ ≤ 2 ^ 53 := Nat.pow_le_pow_right (by omega) (by omega)
      _ = 2 * binade := by rw [binade_eq, Nat.pow_succ, Nat.mul_comm]
  · refine ⟨.inr ?_, ?_⟩
    · have hpos : a ≠ 0 := by
        rintro rfl
        exact absurd hlog (by decide)
      calc binade * twoPow (a.log2 - 52) = twoPow (52 + (a.log2 - 52)) := (twoPow_add ..).symm
        _ = 2 ^ a.log2 := by rw [Nat.add_sub_cancel' hlog, twoPow_eq]
        _ ≤ a := Nat.log2_self_le hpos
    · calc a < 2 ^ (a.log2 + 1) := Nat.lt_log2_self
        _ = twoPow (53 + (a.log2 - 52)) := by rw [twoPow_eq]; congr 1; omega
        _ = 2 * binade * twoPow (a.log2 - 52) := twoPow_add ..

/-- **A fraction lies between two magnitudes**, and what it has beyond the
lower one decides which of them it is rounded to. -/
theorem exists_rest (numerator : Nat) {denominator : Nat} (hpos : 0 < denominator) :
    ∃ rank step rest : Nat, numerator = denominator * units rank + rest ∧
      rest < denominator * step ∧ units (rank + 1) = units rank + step ∧
      nearestRank numerator denominator = if 2 * rest < denominator * step then rank
        else if denominator * step < 2 * rest then rank + 1 else rank + rank % 2 := by
  obtain ⟨d, hd⟩ : ∃ d, (numerator / denominator).log2 - 52 = d := ⟨_, rfl⟩
  obtain ⟨place, hplace⟩ : ∃ place, numerator / (denominator * twoPow d) = place := ⟨_, rfl⟩
  have hbounds := run_bounds (numerator / denominator)
  have hquotient : numerator / denominator / twoPow d = place := by
    rw [Nat.div_div_eq_div_mul, hplace]
  rw [hd] at hbounds
  have hstep : 0 < twoPow d := twoPow_pos d
  have hrun : d = 0 ∨ binade ≤ place :=
    hbounds.1.imp_right fun h => hquotient ▸ (Nat.le_div_iff_mul_le hstep).mpr h
  have hhigh : place < 2 * binade :=
    hquotient ▸ Nat.div_lt_of_lt_mul (by rw [Nat.mul_comm]; exact hbounds.2)
  have hunits := units_of_run hrun hhigh.le
  have hparity : place % 2 = (d * binade + place) % 2 := by
    have hhalf : d * binade = d * twoPow 51 * 2 := (Nat.mul_assoc ..).symm
    rw [hhalf, Nat.mul_add_mod_self_right]
  refine ⟨d * binade + place, twoPow d, numerator % (denominator * twoPow d), ?_,
    Nat.mod_lt numerator (Nat.mul_pos hpos hstep), ?_, ?_⟩
  · rw [hunits, Nat.mul_comm place, ← Nat.mul_assoc, ← hplace, Nat.div_add_mod]
  · rw [hunits, Nat.add_assoc, units_of_run (hrun.imp_right Nat.le_succ_of_le) hhigh, Nat.succ_mul]
  · simp only [nearestRank, hd, roundHalfEven, hplace, ← hparity, add_ite, Nat.add_assoc]

/-- **Rounding is to the nearest**, and to the even one of two. -/
theorem isNearestTo_nearestRank (numerator : Nat) {denominator : Nat} (hpos : 0 < denominator) :
    IsNearestTo (nearestRank numerator denominator) (numerator / denominator) := by
  obtain ⟨rank, step, rest, rfl, hrest, hunits, hrank⟩ := exists_rest numerator hpos
  have hdenominator : (0 : ℚ) < denominator := Nat.cast_pos.mpr hpos
  have hnext : (units (rank + 1) : ℚ) = units rank + step := by rw [hunits, Nat.cast_add]
  have hvalue : ((denominator * units rank + rest : Nat) / denominator : ℚ) =
      units rank + rest / denominator := by
    push_cast
    field_simp
  have hlow : (0 : ℚ) ≤ rest / denominator := div_nonneg (Nat.cast_nonneg rest) hdenominator.le
  have hhigh : (rest / denominator : ℚ) < step := by
    rw [div_lt_iff₀' hdenominator]
    exact_mod_cast hrest
  rw [hrank, hvalue]
  split
  · next h =>
    have hhalf : 2 * (rest / denominator : ℚ) < step := by
      rw [← mul_div_assoc, div_lt_iff₀' hdenominator]
      exact_mod_cast h
    exact isNearestTo_lower (by linarith) (.inl (by linarith))
  split
  · next h =>
    have hhalf : step < 2 * (rest / denominator : ℚ) := by
      rw [← mul_div_assoc, lt_div_iff₀' hdenominator]
      exact_mod_cast h
    exact isNearestTo_upper (by linarith) (.inl (by linarith))
  · next hle hge =>
    -- a tie
    have hhalf : 2 * (rest / denominator : ℚ) = step := by
      rw [← mul_div_assoc, div_eq_iff hdenominator.ne', mul_comm (step : ℚ)]
      exact_mod_cast Nat.le_antisymm (not_lt.mp hge) (not_lt.mp hle)
    rcases Nat.mod_two_eq_zero_or_one rank with heq | heq
    · rw [heq, Nat.add_zero]
      exact isNearestTo_lower (by linarith) (.inr ⟨by linarith, heq⟩)
    · rw [heq]
      exact isNearestTo_upper (by linarith) (.inr ⟨by linarith, by omega⟩)

/-- How a fraction is rounded. -/
theorem nearestRank_eq_iff_isNearestTo {numerator denominator rank : Nat} (hpos : 0 < denominator) :
    nearestRank numerator denominator = rank ↔ IsNearestTo rank (numerator / denominator) :=
  ⟨fun h => h ▸ isNearestTo_nearestRank numerator hpos,
    fun h => (isNearestTo_nearestRank numerator hpos).unique h⟩

/-! ## Whole numbers of units -/

/-- A rank is that of the magnitude nearest to a number of units, and it
is even where another magnitude is as near. -/
structure IsNearest (rank a : Nat) : Prop where
  le : ∀ other, Nat.dist (units rank) a ≤ Nat.dist (units other) a
  even : ∀ other, other ≠ rank → Nat.dist (units other) a = Nat.dist (units rank) a → rank % 2 = 0

theorem cast_dist (m n : Nat) : (Nat.dist m n : ℚ) = |(m : ℚ) - n| := by
  rcases Nat.le_total m n with h | h
  · rw [Nat.dist_eq_sub_of_le h, Nat.cast_sub h, abs_sub_comm, abs_of_nonneg]
    exact sub_nonneg.mpr (Nat.cast_le.mpr h)
  · rw [Nat.dist_eq_sub_of_le_right h, Nat.cast_sub h, abs_of_nonneg]
    exact sub_nonneg.mpr (Nat.cast_le.mpr h)

theorem isNearest_iff {rank a : Nat} : IsNearest rank a ↔ IsNearestTo rank a := by
  have hle (other : Nat) : Nat.dist (units rank) a ≤ Nat.dist (units other) a ↔
      |(units rank : ℚ) - a| ≤ |(units other : ℚ) - a| := by
    rw [← cast_dist, ← cast_dist, Nat.cast_le]
  have heq (other : Nat) : Nat.dist (units other) a = Nat.dist (units rank) a ↔
      |(units other : ℚ) - a| = |(units rank : ℚ) - a| := by
    rw [← cast_dist, ← cast_dist, Nat.cast_inj]
  constructor
  · rintro ⟨hnear, heven⟩
    exact ⟨fun other => (hle other).mp (hnear other),
      fun other hne h => heven other hne ((heq other).mpr h)⟩
  · rintro ⟨hnear, heven⟩
    exact ⟨fun other => (hle other).mpr (hnear other),
      fun other hne h => heven other hne ((heq other).mp h)⟩

theorem nearestRank_eq_iff {a rank : Nat} : nearestRank a 1 = rank ↔ IsNearest rank a := by
  rw [isNearest_iff, nearestRank_eq_iff_isNearestTo Nat.one_pos, Nat.cast_one, div_one]

/-- **A larger magnitude is not rounded to a smaller rank.** -/
theorem nearestRank_mono {a b : Nat} (h : a ≤ b) : nearestRank a 1 ≤ nearestRank b 1 := by
  refine (isNearestTo_nearestRank a Nat.one_pos).mono (isNearestTo_nearestRank b Nat.one_pos) ?_
  rw [Nat.cast_one, div_one, div_one]
  exact Nat.cast_le.mpr h

/-- How far down a whole number of units is rounded. -/
theorem le_nearestRank {a places : Nat} (h : twoPow (places + 52) ≤ a) :
    (places + 1) * binade ≤ nearestRank a 1 := by
  have hbinade : 0 < binade := twoPow_pos 52
  have hunits : units (places * binade + binade) = twoPow (places + 52) := by
    rw [units_of_place (Nat.le_refl _) (by omega), Nat.add_comm places, twoPow_add, binade]
  calc (places + 1) * binade = places * binade + binade := Nat.succ_mul ..
    _ = nearestRank (twoPow (places + 52)) 1 := by rw [← hunits, nearestRank_units]
    _ ≤ nearestRank a 1 := nearestRank_mono h

/-- **A magnitude of the format attracts what is close to it**: all that
is less than one part in `2 ^ 54` away, `gap` being twice the distance. -/
theorem nearestRank_of_near {a rank gap : Nat} (hlow : 2 * units rank ≤ 2 * a + gap)
    (hhigh : 2 * a ≤ 2 * units rank + gap) (hgap : 2 * binade * gap < units rank) :
    nearestRank a 1 = rank := by
  rw [nearestRank_eq_iff_isNearestTo Nat.one_pos, Nat.cast_one, div_one]
  refine isNearestTo_of_middle (fun other hlt => .inl ?_) (fun other hlt => .inl ?_)
  · obtain ⟨before, rfl⟩ : ∃ before, rank = before + 1 :=
      Nat.exists_eq_succ_of_ne_zero (Nat.ne_zero_of_lt hlt)
    obtain ⟨step, -, hnext, hstep⟩ := exists_step before
    have hsmall : gap < step := Nat.lt_of_mul_lt_mul_left (hgap.trans_le hstep)
    have hother : units other ≤ units before := units_strictMono.monotone (Nat.le_of_lt_succ hlt)
    have hmiddle : units other + units (before + 1) < 2 * a := by omega
    exact_mod_cast hmiddle
  · obtain ⟨step, hpos, hnext, hstep⟩ := exists_step rank
    have hsmall : gap < step := Nat.lt_of_mul_lt_mul_left (a := 2 * binade) (by omega)
    have hother : units (rank + 1) ≤ units other := units_strictMono.monotone hlt
    have hmiddle : 2 * a < units rank + units other := by omega
    exact_mod_cast hmiddle

/-- A number of few binary digits has a magnitude at every scale. -/
theorem exists_units_eq_mul {c power : Nat} (hc : c < twoPow 53) (hpower : 52 ≤ power) :
    ∃ rank, units rank = c * twoPow power := by
  rcases Nat.eq_zero_or_pos c with rfl | hpos
  · exact ⟨0, by rw [Nat.zero_mul]; rfl⟩
  have hlog : c.log2 ≤ 52 := Nat.le_of_lt_succ ((Nat.log2_lt hpos.ne').mpr hc)
  obtain ⟨shift, hshift⟩ : ∃ shift, c.log2 + shift = 52 := ⟨52 - c.log2, by omega⟩
  have hlow : binade ≤ c * twoPow shift := by
    calc binade = 2 ^ c.log2 * twoPow shift := by rw [binade_eq, ← hshift, Nat.pow_add]; rfl
      _ ≤ c * twoPow shift := Nat.mul_le_mul_right _ (Nat.log2_self_le hpos.ne')
  have hhigh : c * twoPow shift < 2 * binade := by
    calc c * twoPow shift < 2 ^ (c.log2 + 1) * twoPow shift :=
          Nat.mul_lt_mul_of_pos_right Nat.lt_log2_self (twoPow_pos shift)
      _ = 2 * binade := by rw [binade_eq, ← hshift, twoPow_eq]; ring
  refine ⟨(power - shift) * binade + c * twoPow shift, ?_⟩
  rw [units_of_place hlow hhigh, Nat.mul_assoc]
  congr 1
  rw [← twoPow_add, Nat.add_sub_cancel' (by omega)]

/-! ## Whole numbers -/

/-- The rank of the magnitude nearest to a whole number. -/
def rankOfNat (n : Nat) : Nat := rankOfDecimal ⟨n, 0⟩

/-- Within the format whole numbers are rounded as units. -/
theorem rankOfNat_eq {n : Nat} (h : n < tenPow 401) :
    rankOfNat n = nearestRank (n * unitsOfOne) 1 := by
  rcases Nat.eq_zero_or_pos n with rfl | hpos
  · rw [Nat.zero_mul]
    rfl
  have hlength := decimalLength_pos n
  have hlength' : decimalLength n ≤ 401 := (decimalLength_le_iff (by omega)).mpr h
  have hleading : (⟨n, 0⟩ : Decimal).leading = (decimalLength n : Int) - 1 := by
    simp [Decimal.leading]
  have hrank : rankOfNat n = nearestRank (n * tenPow 0 * unitsOfOne) 1 :=
    rankOfDecimal_eq (by exact hpos.ne') (by omega) (by omega)
  rw [hrank, tenPow_zero, Nat.mul_one]

theorem lt_of_rankOfNat_lt_count {n : Nat} (h : rankOfNat n < count) : n < tenPow 401 := by
  by_contra hlarge
  have hlength : ¬ decimalLength n ≤ 401 := by
    rwa [decimalLength_le_iff (by omega)]
  have hleading : 400 < (⟨n, 0⟩ : Decimal).leading := by
    simp only [Decimal.leading]
    omega
  have hne : n ≠ 0 := by rintro rfl; exact hlarge (tenPow_pos 401)
  rw [rankOfNat, rankOfDecimal, if_neg hne, if_pos hleading] at h
  exact Nat.lt_irrefl _ h

/-- **A whole number is read as the number of the format nearest to
it**, as far as the format goes. -/
theorem rankOfNat_eq_iff {n rank : Nat} (hrank : rank < count) :
    rankOfNat n = rank ↔ IsNearest rank (n * unitsOfOne) := by
  constructor
  · intro h
    rw [← nearestRank_eq_iff, ← rankOfNat_eq (lt_of_rankOfNat_lt_count (h ▸ hrank)), h]
  · intro h
    have hnearest := nearestRank_eq_iff.mpr h
    have hn : n < tenPow 401 := by
      by_contra hlarge
      -- so large a number is rounded to the end of the format or behind it
      have hone : twoPow (2046 + 52) ≤ tenPow 401 * unitsOfOne := by decide +kernel
      have hend := le_nearestRank (hone.trans (Nat.mul_le_mul_right _ (Nat.not_lt.mp hlarge)))
      rw [hnearest] at hend
      exact absurd hrank (Nat.not_lt.mpr hend)
    rw [rankOfNat_eq hn, hnearest]

/-- **The whole numbers that are read as one number have no gap between
them.** -/
theorem rankOfNat_eq_of_between {a b c rank : Nat} (hrank : rank < count) (hab : a ≤ b)
    (hbc : b ≤ c) (ha : rankOfNat a = rank) (hc : rankOfNat c = rank) : rankOfNat b = rank := by
  have hc' : c < tenPow 401 := lt_of_rankOfNat_lt_count (hc ▸ hrank)
  rw [rankOfNat_eq (by omega)] at ha hc ⊢
  have hlow : nearestRank (a * unitsOfOne) 1 ≤ nearestRank (b * unitsOfOne) 1 :=
    nearestRank_mono (Nat.mul_le_mul_right _ hab)
  have hhigh : nearestRank (b * unitsOfOne) 1 ≤ nearestRank (c * unitsOfOne) 1 :=
    nearestRank_mono (Nat.mul_le_mul_right _ hbc)
  omega

/-- The words of 64 bits are within the format. -/
theorem rankOfNat_lt_count {n : Nat} (h : n < twoPow 64) : rankOfNat n < count := by
  have hcount : (1085 + 2) * binade < count := by decide +kernel
  exact rankOfDecimal_lt_count rfl rfl hcount h

/-- A magnitude that is a whole number is far from too large to be read. -/
theorem lt_of_units_eq {rank v : Nat} (hrank : rank < count)
    (h : units rank = v * unitsOfOne) : v < tenPow 400 := by
  have hbound : 2 * binade * twoPow 2045 < tenPow 400 * unitsOfOne := by decide +kernel
  have hunits : units rank ≤ 2 * binade * twoPow 2045 := units_le hrank
  rw [h] at hunits
  exact Nat.lt_of_mul_lt_mul_right (hunits.trans_lt hbound)

theorem ne_zero_of_units_eq {rank v : Nat} (hv : v ≠ 0) (h : units rank = v * unitsOfOne) :
    rank ≠ 0 := by
  rintro rfl
  exact absurd h (Nat.mul_pos (Nat.pos_of_ne_zero hv) (twoPow_pos 1074)).ne

/-- **A whole number close to a magnitude is read as it.** -/
theorem rankOfNat_of_near {rank v n gap : Nat} (hrank : rank < count)
    (hunits : units rank = v * unitsOfOne) (hlow : 2 * v ≤ 2 * n + gap)
    (hhigh : 2 * n ≤ 2 * v + gap) (hgap : 2 * binade * gap < v) : rankOfNat n = rank := by
  have hone : 0 < unitsOfOne := twoPow_pos 1074
  have hbinade : 1 * gap ≤ 2 * binade * gap := Nat.mul_le_mul_right _ (by decide)
  have hv := lt_of_units_eq hrank hunits
  have hn : n < tenPow 401 := by rw [tenPow_succ]; omega
  have hlow' := Nat.mul_le_mul_right unitsOfOne hlow
  have hhigh' := Nat.mul_le_mul_right unitsOfOne hhigh
  have hgap' := Nat.mul_lt_mul_of_pos_right hgap hone
  rw [Nat.add_mul, Nat.mul_assoc, Nat.mul_assoc, ← hunits] at hlow' hhigh'
  rw [Nat.mul_assoc, ← hunits] at hgap'
  rw [rankOfNat_eq hn]
  exact nearestRank_of_near hlow' hhigh' hgap'

/-- A magnitude that is a whole number is read from that number. -/
theorem rankOfNat_of_units {rank v : Nat} (hrank : rank < count)
    (h : units rank = v * unitsOfOne) : rankOfNat v = rank := by
  have hv : v < tenPow 401 := (lt_of_units_eq hrank h).trans (by decide +kernel)
  rw [rankOfNat_eq hv, ← h, nearestRank_units]

/-- **Up to `2 ^ 53` whole numbers are magnitudes.** -/
theorem units_rankOfNat {n : Nat} (h : n ≤ twoPow 53) :
    units (rankOfNat n) = n * unitsOfOne := by
  obtain ⟨rank, hrank⟩ : ∃ rank, units rank = n * unitsOfOne := by
    rcases h.eq_or_lt with rfl | hlt
    · have hone : 1 < twoPow 53 := by decide
      obtain ⟨rank, hrank⟩ := exists_units_eq_mul hone (Nat.le_add_right_of_le (Nat.le_succ 52))
      exact ⟨rank, by rw [hrank, Nat.one_mul, twoPow_add, unitsOfOne]⟩
    · exact exists_units_eq_mul hlt (by omega)
  have hbound : n < tenPow 401 := h.trans_lt (by decide +kernel)
  rw [rankOfNat_eq hbound, ← hrank, nearestRank_units]

/-- **A whole number below `2 ^ 53` is read as no other.** -/
theorem eq_of_rankOfNat_eq {m n : Nat} (hn : n < twoPow 53) (h : rankOfNat m = rankOfNat n) :
    m = n := by
  have hone : 0 < unitsOfOne := twoPow_pos 1074
  have hexact {k : Nat} (hk : k ≤ twoPow 53) (hrank : rankOfNat k = rankOfNat n) : k = n := by
    have hunits : units (rankOfNat k) = units (rankOfNat n) := congrArg units hrank
    rw [units_rankOfNat hk, units_rankOfNat hn.le] at hunits
    exact Nat.eq_of_mul_eq_mul_right hone hunits
  rcases Nat.le_total m (twoPow 53) with hm | hm
  · exact hexact hm h
  · have hcount : rankOfNat n < count :=
      rankOfNat_lt_count (hn.trans (Nat.pow_lt_pow_right (by omega) (by omega)))
    have hlimit := rankOfNat_eq_of_between hcount hn.le hm rfl h
    exact absurd (hexact (Nat.le_refl _) hlimit) hn.ne'

/-- **From `2 ^ 53` on magnitudes are whole numbers**, and none of them is
smaller. -/
theorem exists_units_rankOfNat_of_le {n : Nat} (hlow : twoPow 53 ≤ n) (hhigh : n < tenPow 401) :
    ∃ v, twoPow 53 ≤ v ∧ units (rankOfNat n) = v * unitsOfOne := by
  have hbinade : 0 < binade := twoPow_pos 52
  obtain ⟨power, hpower⟩ : ∃ power, power = 1074 := ⟨1074, rfl⟩
  have hone : unitsOfOne = twoPow power := by rw [hpower]; rfl
  have hrank : (power + 2) * binade ≤ rankOfNat n := by
    rw [rankOfNat_eq hhigh]
    refine le_nearestRank ?_
    have hpowers : power + 1 + 52 = 53 + power := by omega
    calc twoPow (power + 1 + 52) = twoPow 53 * unitsOfOne := by rw [hone, hpowers, twoPow_add]
      _ ≤ n * unitsOfOne := Nat.mul_le_mul_right _ hlow
  have htwo : 2 * binade ≤ rankOfNat n := (Nat.mul_le_mul_right _ (by omega)).trans hrank
  obtain ⟨doublings, place, hplace, hplace', heq, hunits⟩ := exists_units_eq htwo
  have hdoublings : power + 1 ≤ doublings := by
    have hlt : (power + 2) * binade < (doublings + 2) * binade := by
      rw [Nat.add_mul doublings]
      omega
    have := Nat.lt_of_mul_lt_mul_right hlt
    omega
  obtain ⟨more, rfl⟩ : ∃ more, doublings = power + 1 + more := ⟨doublings - (power + 1), by omega⟩
  refine ⟨place * 2 * twoPow more, ?_, ?_⟩
  · calc twoPow 53 = binade * 2 := rfl
      _ ≤ place * 2 := Nat.mul_le_mul_right _ hplace
      _ ≤ place * 2 * twoPow more := Nat.le_mul_of_pos_right _ (twoPow_pos more)
  · rw [hunits, hone]
    simp only [twoPow_eq]
    ring

/-- **Whole numbers are read as whole numbers**, which are the same below
`2 ^ 53`. -/
theorem exists_units_rankOfNat {n : Nat} (h : n < tenPow 401) :
    ∃ v, units (rankOfNat n) = v * unitsOfOne ∧ (v < twoPow 53 → v = n) := by
  rcases Nat.lt_or_ge n (twoPow 53) with hsmall | hlarge
  · exact ⟨n, units_rankOfNat hsmall.le, fun _ => rfl⟩
  · obtain ⟨v, hv, hunits⟩ := exists_units_rankOfNat_of_le hlarge h
    exact ⟨v, hunits, fun hlt => absurd hv (Nat.not_le.mpr hlt)⟩

end Binary64

end LayerQuery
