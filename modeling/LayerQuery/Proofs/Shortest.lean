import LayerQuery.Number.Reading
import LayerQuery.Proofs.Lists
import LayerQuery.Proofs.Nearest
/-!
# The shortest whole number

A query writes a number of the format with the fewest digits that read
back. Where the number is whole, so is what is written
(`exists_isShortest`): it is the whole number that `IsShortest`
describes, and there is only one (`IsShortest.unique`).

The search looks at one count of digits after the other, and each time
at the two multiples of a power of ten that enclose the magnitude. That
it misses nothing is due to the order of the numbers. A whole number of
so many digits is not between the two (`le_below_or_above_le`), and if it
is read as the magnitude then so is the one of the two on its side, which
lies between.
-/

namespace LayerQuery

theorem tenPow_add (m n : Nat) : tenPow (m + n) = tenPow m * tenPow n := Nat.pow_add 10 m n

theorem tenPow_le_tenPow {m n : Nat} (h : m ≤ n) : tenPow m ≤ tenPow n :=
  Nat.pow_le_pow_right (by omega) h

/-! ## Digits before the closing zeros -/

/-- A whole number has at most this many digits, zeros at its end not
counted. -/
def IsWrittenIn (digits n : Nat) : Prop :=
  ∃ c zeros, c < tenPow digits ∧ n = c * tenPow zeros

theorem IsWrittenIn.mono {few many n : Nat} (h : IsWrittenIn few n) (hle : few ≤ many) :
    IsWrittenIn many n := by
  obtain ⟨c, zeros, hc, rfl⟩ := h
  exact ⟨c, zeros, hc.trans_le (tenPow_le_tenPow hle), rfl⟩

/-- One more than the largest number of so many digits is a power of
ten. -/
theorem isWrittenIn_of_le {digits c : Nat} (hdigits : 0 < digits) (hc : c ≤ tenPow digits)
    (zeros : Nat) : IsWrittenIn digits (c * tenPow zeros) := by
  rcases hc.eq_or_lt with rfl | hlt
  · have hone : 1 < tenPow digits := Nat.one_lt_pow hdigits.ne' (by omega)
    exact ⟨1, digits + zeros, hone, by rw [tenPow_add, Nat.one_mul]⟩
  · exact ⟨c, zeros, hlt, rfl⟩

/-- How many digits a product with a power of ten has. -/
theorem decimalLength_mul_tenPow {n : Nat} (hn : n ≠ 0) (zeros : Nat) :
    decimalLength (n * tenPow zeros) = decimalLength n + zeros := by
  induction zeros with
  | zero => rw [tenPow_zero, Nat.mul_one]; rfl
  | succ zeros ih =>
    have hne : n * tenPow zeros ≠ 0 := Nat.mul_ne_zero hn (tenPow_pos zeros).ne'
    rw [tenPow_succ, ← Nat.mul_assoc, decimalLength_mul_ten hne, ih]
    rfl

theorem lt_tenPow_decimalLength (n : Nat) : n < tenPow (decimalLength n) :=
  (decimalLength_le_iff (decimalLength_pos n)).mp (Nat.le_refl _)

theorem tenPow_le_of_lt_decimalLength {n k : Nat} (hn : n ≠ 0) (hk : k < decimalLength n) :
    tenPow k ≤ n := by
  rcases Nat.eq_zero_or_pos k with rfl | hpos
  · rw [tenPow_zero]
    omega
  · by_contra hlt
    have := (decimalLength_le_iff hpos).mpr (Nat.not_le.mp hlt)
    omega

namespace Binary64

/-! ## The two neighbours -/

/-- The largest multiple of a power of ten that is not above a number. -/
def below (v cut : Nat) : Nat := v / tenPow cut * tenPow cut

/-- The smallest one above it. -/
def above (v cut : Nat) : Nat := (v / tenPow cut + 1) * tenPow cut

theorem below_add_mod (v cut : Nat) : below v cut + v % tenPow cut = v := by
  rw [below, Nat.mul_comm]
  exact Nat.div_add_mod v (tenPow cut)

theorem above_eq (v cut : Nat) : above v cut = below v cut + tenPow cut := Nat.succ_mul ..

/-- **A number of few digits is not between the neighbours** that are cut
to so many digits. -/
theorem le_below_or_above_le {v digits n : Nat} (hv : v ≠ 0) (hdigits : digits ≤ decimalLength v)
    (h : IsWrittenIn digits n) :
    n ≤ below v (decimalLength v - digits) ∨ above v (decimalLength v - digits) ≤ n := by
  obtain ⟨c, zeros, hc, rfl⟩ := h
  obtain ⟨cut, hcut⟩ : ∃ cut, decimalLength v = digits + cut := ⟨decimalLength v - digits, by omega⟩
  rw [hcut, Nat.add_sub_cancel_left]
  rcases Nat.lt_or_ge zeros cut with hzeros | hzeros
  · -- a number with so few zeros is short of the leading digit
    left
    cases digits with
    | zero =>
      obtain rfl : c = 0 := Nat.lt_one_iff.mp hc
      rw [Nat.zero_mul]
      exact Nat.zero_le _
    | succ d =>
      have hlead : tenPow d ≤ v / tenPow cut := by
        rw [Nat.le_div_iff_mul_le (tenPow_pos cut), ← tenPow_add]
        exact tenPow_le_of_lt_decimalLength hv (by omega)
      calc c * tenPow zeros ≤ tenPow (d + 1) * tenPow zeros := Nat.mul_le_mul_right _ hc.le
        _ = tenPow (d + 1 + zeros) := (tenPow_add ..).symm
        _ ≤ tenPow (d + cut) := tenPow_le_tenPow (by omega)
        _ = tenPow d * tenPow cut := tenPow_add ..
        _ ≤ below v cut := Nat.mul_le_mul_right _ hlead
  · obtain ⟨more, rfl⟩ : ∃ more, zeros = more + cut := ⟨zeros - cut, by omega⟩
    rw [tenPow_add, ← Nat.mul_assoc]
    rcases Nat.lt_or_ge (v / tenPow cut) (c * tenPow more) with hlt | hle
    · exact .inr (Nat.mul_le_mul_right _ hlt)
    · exact .inl (Nat.mul_le_mul_right _ hle)

/-- The upper neighbour is preferred when the lower one is not nearer. -/
theorem upperFirst_up (lower rest step : Nat) :
    upperFirst .up lower rest step = decide (step ≤ 2 * rest) := by
  rw [Bool.eq_iff_iff]
  simp only [upperFirst, beq_self_eq_true, Bool.true_or, Bool.and_true, Bool.or_eq_true,
    decide_eq_true_eq, beq_iff_eq]
  omega

/-- The neighbours of a decimal are those of its digits before the point,
as long as all behind it are cut. -/
theorem neighbours_mul_tenPow (v places cut : Nat) :
    neighbours .up ⟨v * tenPow places, -places⟩ (cut + places) = neighbours .up ⟨v, 0⟩ cut := by
  have hplaces : 0 < tenPow places := tenPow_pos places
  have hexponent : -(places : Int) + ((cut + places : Nat) : Int) = 0 + cut := by omega
  have hfirst : tenPow cut * tenPow places ≤ 2 * (v % tenPow cut * tenPow places) ↔
      tenPow cut ≤ 2 * (v % tenPow cut) := by
    rw [← Nat.mul_assoc, Nat.mul_le_mul_right_iff hplaces]
  simp only [neighbours, upperFirst_up, tenPow_add, Nat.mul_div_mul_right _ _ hplaces,
    Nat.mul_mod_mul_right, hexponent, hfirst]

/-! ## What the search finds -/

/-- How far a whole number lies from a magnitude, in units. -/
def gap (rank n : Nat) : Nat := Nat.dist (n * unitsOfOne) (units rank)

/-- One whole number is nearer to a magnitude than another, or it is as
near and not smaller. -/
def Precedes (rank m n : Nat) : Prop :=
  gap rank m < gap rank n ∨ gap rank m = gap rank n ∧ n ≤ m

theorem precedes_iff {rank v : Nat} (h : units rank = v * unitsOfOne) (m n : Nat) :
    Precedes rank m n ↔
      Nat.dist m v < Nat.dist n v ∨ Nat.dist m v = Nat.dist n v ∧ n ≤ m := by
  have hone : 0 < unitsOfOne := twoPow_pos 1074
  simp only [Precedes, gap, h, Nat.dist_mul_right, Nat.mul_lt_mul_right hone,
    Nat.mul_left_inj hone.ne']

/-- The neighbour that reads back, if one does, the preferred one
first. -/
def found? (rank v cut : Nat) : Option Decimal :=
  (neighbours .up ⟨v, 0⟩ cut).find? fun d => rankOfDecimal d == rank

section Search

variable {rank v cut : Nat}

theorem reads_neighbour_iff (c : Nat) :
    (rankOfDecimal ⟨c, 0 + cut⟩ == rank) = true ↔ rankOfNat (c * tenPow cut) = rank := by
  rw [beq_iff_eq, rankOfNat, rankOfDecimal_scale]

theorem found?_eq_none_iff : found? rank v cut = none ↔
    rankOfNat (below v cut) ≠ rank ∧ rankOfNat (above v cut) ≠ rank := by
  simp only [found?, neighbours, List.find?_eq_none]
  split
  · simp only [List.forall_mem_cons, reads_neighbour_iff]
    simp [below, above, and_comm]
  · simp only [List.forall_mem_cons, reads_neighbour_iff]
    simp [below, above]

/-- The neighbour that is found reads back, and the other one does not or
is farther away. -/
theorem found?_eq_some {d : Decimal} (h : found? rank v cut = some d) :
    d = ⟨v / tenPow cut + 1, cut⟩ ∧ rankOfNat (above v cut) = rank ∧
        (tenPow cut ≤ 2 * (v % tenPow cut) ∨ rankOfNat (below v cut) ≠ rank) ∨
      d = ⟨v / tenPow cut, cut⟩ ∧ rankOfNat (below v cut) = rank ∧
        (2 * (v % tenPow cut) < tenPow cut ∨ rankOfNat (above v cut) ≠ rank) := by
  have hexponent : (0 : Int) + cut = cut := Int.zero_add _
  simp only [found?, neighbours, upperFirst_up, decide_eq_true_eq] at h
  split at h
  · next hup =>
    rcases find?_pair_eq_some h with ⟨rfl, ha⟩ | ⟨rfl, hb, ha⟩
    · exact .inl ⟨by rw [hexponent], (reads_neighbour_iff _).mp ha, .inl hup⟩
    · exact .inr ⟨by rw [hexponent], (reads_neighbour_iff _).mp hb,
        .inr fun habove => ha ((reads_neighbour_iff _).mpr habove)⟩
  · next hup =>
    rcases find?_pair_eq_some h with ⟨rfl, hb⟩ | ⟨rfl, ha, hb⟩
    · exact .inr ⟨by rw [hexponent], (reads_neighbour_iff _).mp hb, .inl (Nat.not_le.mp hup)⟩
    · exact .inl ⟨by rw [hexponent], (reads_neighbour_iff _).mp ha,
        .inr fun hbelow => hb ((reads_neighbour_iff _).mpr hbelow)⟩

/-- If a number reads back that is not above the lower neighbour, so does
the neighbour. -/
theorem reads_below (hrank : rank < count) (hv : rankOfNat v = rank) {n : Nat}
    (hn : rankOfNat n = rank) (h : n ≤ below v cut) : rankOfNat (below v cut) = rank := by
  have hbelow := below_add_mod v cut
  exact rankOfNat_eq_of_between hrank h (by omega) hn hv

/-- And if one does that is not below the upper neighbour. -/
theorem reads_above (hrank : rank < count) (hv : rankOfNat v = rank) {n : Nat}
    (hn : rankOfNat n = rank) (h : above v cut ≤ n) : rankOfNat (above v cut) = rank := by
  have hbelow := below_add_mod v cut
  have habove := above_eq v cut
  have hmod : v % tenPow cut < tenPow cut := Nat.mod_lt _ (tenPow_pos cut)
  exact rankOfNat_eq_of_between hrank (by omega) h hv hn

/-- If no neighbour reads back, nothing does that is not between them. -/
theorem not_reads_of_found?_eq_none (hrank : rank < count) (hunits : units rank = v * unitsOfOne)
    (h : found? rank v cut = none) {n : Nat} (hside : n ≤ below v cut ∨ above v cut ≤ n) :
    rankOfNat n ≠ rank := by
  intro hn
  obtain ⟨hbelow, habove⟩ := found?_eq_none_iff.mp h
  have hv := rankOfNat_of_units hrank hunits
  rcases hside with hle | hle
  · exact hbelow (reads_below hrank hv hn hle)
  · exact habove (reads_above hrank hv hn hle)

/-- **What the search finds precedes all that is not between the
neighbours.** -/
theorem precedes_of_found?_eq_some (hrank : rank < count) (hunits : units rank = v * unitsOfOne)
    {d : Decimal} (h : found? rank v cut = some d) :
    ∃ c, d = ⟨c, cut⟩ ∧ c ≤ v / tenPow cut + 1 ∧ rankOfNat (c * tenPow cut) = rank ∧
      ∀ n, rankOfNat n = rank → n ≤ below v cut ∨ above v cut ≤ n →
        Precedes rank (c * tenPow cut) n := by
  have hv := rankOfNat_of_units hrank hunits
  have hbelow := below_add_mod v cut
  have habove := above_eq v cut
  have hmod : v % tenPow cut < tenPow cut := Nat.mod_lt _ (tenPow_pos cut)
  simp only [precedes_iff hunits, Nat.dist]
  rcases found?_eq_some h with ⟨rfl, hreads, hother⟩ | ⟨rfl, hreads, hother⟩
  · refine ⟨_, rfl, Nat.le_refl _, hreads, fun n hn hside => ?_⟩
    have hfold : (v / tenPow cut + 1) * tenPow cut = above v cut := rfl
    rw [hfold]
    -- below lies nothing nearer, or nothing at all that reads back
    rcases hother with hnear | hnot
    · omega
    · have hout : ¬ n ≤ below v cut := fun hle => hnot (reads_below hrank hv hn hle)
      omega
  · refine ⟨_, rfl, Nat.le_succ _, hreads, fun n hn hside => ?_⟩
    have hfold : v / tenPow cut * tenPow cut = below v cut := rfl
    rw [hfold]
    rcases hother with hnear | hnot
    · omega
    · have hout : ¬ above v cut ≤ n := fun hle => hnot (reads_above hrank hv hn hle)
      omega

end Search

/-- **Seventeen digits are enough**, and no more than the whole number
has. -/
theorem exists_found? {rank v : Nat} (hrank : rank < count) (hv : v ≠ 0)
    (hunits : units rank = v * unitsOfOne) :
    ∃ p < 17, p < decimalLength v ∧ found? rank v (decimalLength v - (p + 1)) ≠ none := by
  have hreads := rankOfNat_of_units hrank hunits
  have hlength := decimalLength_pos v
  rcases Nat.lt_or_ge 17 (decimalLength v) with hlong | hshort
  · -- the nearer one of two neighbours of so many digits is near enough
    refine ⟨16, by omega, by omega, fun hnone => ?_⟩
    obtain ⟨cut, hcut⟩ : ∃ cut, decimalLength v = 17 + cut := ⟨decimalLength v - 17, by omega⟩
    rw [hcut, Nat.add_sub_cancel_left] at hnone
    obtain ⟨hbelow, habove⟩ := found?_eq_none_iff.mp hnone
    have hsum := below_add_mod v cut
    have hmod : v % tenPow cut < tenPow cut := Nat.mod_lt _ (tenPow_pos cut)
    have hgap : 2 * binade * tenPow cut < v := by
      calc 2 * binade * tenPow cut < tenPow 16 * tenPow cut :=
            Nat.mul_lt_mul_of_pos_right (by decide +kernel) (tenPow_pos cut)
        _ = tenPow (16 + cut) := (tenPow_add 16 cut).symm
        _ ≤ v := tenPow_le_of_lt_decimalLength hv (by omega)
    rw [above_eq] at habove
    rcases Nat.le_total (2 * (v % tenPow cut)) (tenPow cut) with hnear | hnear
    · exact hbelow (rankOfNat_of_near hrank hunits (by omega) (by omega) hgap)
    · exact habove (rankOfNat_of_near hrank hunits (by omega) (by omega) hgap)
  · -- with all its digits the number is its own neighbour
    refine ⟨decimalLength v - 1, by omega, by omega, fun hnone => ?_⟩
    have hcut : decimalLength v - (decimalLength v - 1 + 1) = 0 := by omega
    rw [hcut] at hnone
    have hself : below v 0 = v := by rw [below, tenPow_zero, Nat.div_one, Nat.mul_one]
    have hbelow := (found?_eq_none_iff.mp hnone).1
    rw [hself] at hbelow
    exact hbelow hreads

/-! ## The shortest whole number -/

/-- A whole number is the shortest one for a magnitude: the magnitude is
the nearest to it, no other number of which this is true has fewer digits
before its closing zeros, and it precedes all that have as few. -/
structure IsShortest (rank n : Nat) : Prop where
  reads : IsNearest rank (n * unitsOfOne)
  fewest : ∀ m digits, IsNearest rank (m * unitsOfOne) → IsWrittenIn digits m →
    IsWrittenIn digits n
  precedes : ∀ m, IsNearest rank (m * unitsOfOne) →
    (∀ digits, IsWrittenIn digits n → IsWrittenIn digits m) → Precedes rank n m

/-- **There is only one.** -/
theorem IsShortest.unique {rank m n : Nat} (hm : IsShortest rank m) (hn : IsShortest rank n) :
    m = n := by
  have hmn := hm.precedes n hn.reads fun digits => hn.fewest m digits hm.reads
  have hnm := hn.precedes m hm.reads fun digits => hm.fewest n digits hn.reads
  simp only [Precedes] at hmn hnm
  omega

/-- A whole number below `2 ^ 53` is the shortest one for its own
magnitude. -/
theorem isShortest_rankOfNat {n : Nat} (h : n < twoPow 53) : IsShortest (rankOfNat n) n := by
  have hrank : rankOfNat n < count :=
    rankOfNat_lt_count (h.trans (Nat.pow_lt_pow_right (by omega) (by omega)))
  have honly (m : Nat) (hm : IsNearest (rankOfNat n) (m * unitsOfOne)) : m = n :=
    eq_of_rankOfNat_eq h ((rankOfNat_eq_iff hrank).mpr hm)
  refine ⟨(rankOfNat_eq_iff hrank).mp rfl, fun m digits hm hdigits => ?_, fun m hm _ => ?_⟩
  · rwa [← honly m hm]
  · rw [honly m hm]
    exact .inr ⟨rfl, Nat.le_refl n⟩

/-- What is found first is the shortest. -/
theorem isShortest_of_found? {rank v p : Nat} {d : Decimal} (hrank : rank < count) (hv : v ≠ 0)
    (hunits : units rank = v * unitsOfOne) (hp : p < decimalLength v)
    (h : found? rank v (decimalLength v - (p + 1)) = some d)
    (hfirst : ∀ q < p, found? rank v (decimalLength v - (q + 1)) = none) :
    ∃ c zeros : Nat, d = ⟨c, zeros⟩ ∧ IsShortest rank (c * tenPow zeros) := by
  obtain ⟨c, rfl, hc, hreads, hprecedes⟩ := precedes_of_found?_eq_some hrank hunits h
  obtain ⟨cut, hcut⟩ : ∃ cut, decimalLength v = p + 1 + cut :=
    ⟨decimalLength v - (p + 1), by omega⟩
  have hcut' : decimalLength v - (p + 1) = cut := by omega
  rw [hcut'] at hc hreads hprecedes ⊢
  have hquotient : v / tenPow cut < tenPow (p + 1) := by
    rw [Nat.div_lt_iff_lt_mul (tenPow_pos cut), ← tenPow_add, ← hcut]
    exact lt_tenPow_decimalLength v
  have hwritten : IsWrittenIn (p + 1) (c * tenPow cut) :=
    isWrittenIn_of_le (by omega) (by omega) cut
  refine ⟨c, cut, rfl, (rankOfNat_eq_iff hrank).mp hreads, fun m digits hm hdigits => ?_,
    fun m hm hdigits => ?_⟩
  · rw [← rankOfNat_eq_iff hrank] at hm
    rcases Nat.lt_or_ge p digits with hmany | hfew
    · exact hwritten.mono hmany
    · -- with fewer digits something would have been found before
      cases digits with
      | zero =>
        obtain ⟨c', zeros, hc', rfl⟩ := hdigits
        obtain rfl : c' = 0 := Nat.lt_one_iff.mp hc'
        rw [Nat.zero_mul] at hm
        exact absurd hm.symm (ne_zero_of_units_eq hv hunits)
      | succ q =>
        have hside := le_below_or_above_le hv (by omega) hdigits
        exact absurd hm (not_reads_of_found?_eq_none hrank hunits (hfirst q hfew) hside)
  · have hside := le_below_or_above_le hv hp (hdigits _ hwritten)
    rw [hcut'] at hside
    exact hprecedes m ((rankOfNat_eq_iff hrank).mpr hm) hside

/-! ## What a query writes -/

/-- A magnitude that is a whole number is that number with zeros behind
the point. -/
theorem exists_exact_eq {rank v : Nat} (h : units rank = v * unitsOfOne) :
    ∃ places : Nat, exact rank = ⟨v * tenPow places, -places⟩ := by
  obtain ⟨places, hplaces⟩ : ∃ places, places = 1074 := ⟨1074, rfl⟩
  have hone : unitsOfOne = twoPow places := by rw [hplaces]; rfl
  have hexact : exact rank = ⟨units rank * Nat.pow 5 places, -places⟩ := by
    have hexponent : Int.negSucc 1073 = -((1074 : Nat) : Int) := rfl
    rw [exact_eq, hexponent, ← hplaces]
  have hten : twoPow places * Nat.pow 5 places = tenPow places := (Nat.mul_pow 2 5 places).symm
  exact ⟨places, by rw [hexact, h, hone, Nat.mul_assoc, hten]⟩

/-- What is found with one more than `p` digits. -/
def search? (rank p : Nat) : Option Decimal :=
  (neighbours .up (exact rank) (decimalLength (exact rank).coefficient - (p + 1))).find?
    fun d => rankOfDecimal d == rank

theorem shortest_up (rank : Nat) :
    shortest .up rank = (((List.range 17).findSome? (search? rank)).getD (exact rank)).strip := rfl

/-- Where no more digits are kept than the whole number has, its
neighbours are searched. -/
theorem search?_eq {rank v p : Nat} (hv : v ≠ 0) (hunits : units rank = v * unitsOfOne)
    (hp : p < decimalLength v) : search? rank p = found? rank v (decimalLength v - (p + 1)) := by
  obtain ⟨places, hexact⟩ := exists_exact_eq hunits
  have hcut : decimalLength v + places - (p + 1) = decimalLength v - (p + 1) + places := by omega
  rw [search?, hexact, decimalLength_mul_tenPow hv, hcut, neighbours_mul_tenPow, found?]

/-- **The search ends with the shortest whole number**, zeros at its end
left aside. -/
theorem exists_shortest_eq {rank v : Nat} (hrank : rank < count) (hv : v ≠ 0)
    (hunits : units rank = v * unitsOfOne) :
    ∃ c zeros : Nat, shortest .up rank = Decimal.strip ⟨c, zeros⟩ ∧
      IsShortest rank (c * tenPow zeros) := by
  obtain ⟨last, hlast, hlength, hfound⟩ := exists_found? hrank hv hunits
  rw [← search?_eq hv hunits hlength] at hfound
  obtain ⟨p, d, hp, hd, hsome, hfirst⟩ := exists_findSome?_range hlast hfound
  have hp' : p < decimalLength v := hp.trans_lt hlength
  rw [search?_eq hv hunits hp'] at hd
  have hfirst' : ∀ q < p, found? rank v (decimalLength v - (q + 1)) = none := by
    intro q hq
    rw [← search?_eq hv hunits (hq.trans hp')]
    exact hfirst q hq
  obtain ⟨c, zeros, rfl, hshortest⟩ := isShortest_of_found? hrank hv hunits hp' hd hfirst'
  exact ⟨c, zeros, by rw [shortest_up, hsome, Option.getD_some], hshortest⟩

/-- Zeros that are moved into the exponent stay zeros. -/
theorem exists_stripUpTo_eq (fuel c zeros : Nat) :
    ∃ c' zeros' : Nat, Decimal.stripUpTo fuel ⟨c, zeros⟩ = ⟨c', zeros'⟩ ∧
      c' * tenPow zeros' = c * tenPow zeros := by
  induction fuel generalizing c zeros with
  | zero => exact ⟨c, zeros, rfl, rfl⟩
  | succ fuel ih =>
    rw [Decimal.stripUpTo]
    split
    · next h =>
      obtain ⟨c', zeros', heq, hvalue⟩ := ih (c / 10) (zeros + 1)
      have hten : c / 10 * 10 = c := Nat.div_mul_cancel (Nat.dvd_of_mod_eq_zero h.2)
      refine ⟨c', zeros', heq, ?_⟩
      rw [hvalue, tenPow_succ, Nat.mul_comm (tenPow zeros), ← Nat.mul_assoc, hten]
    · exact ⟨c, zeros, rfl, rfl⟩

/-- A numeral without point and exponent is an integer. -/
theorem text_integer (n : Int) :
    (⟨decide (n < 0), n.natAbs, [], none⟩ : Numeral).text = integerText n := by
  simp only [Numeral.text, Numeral.fractionText, Numeral.exponentText, List.isEmpty_nil, if_true,
    integerText, decide_eq_true_eq, String.append_empty]

theorem natAbs_signed (negative : Bool) (m : Nat) : (signed negative m).natAbs = m := by
  cases negative <;> simp [signed]

/-- Only zero loses its sign. -/
theorem decide_signed {m : Nat} (hm : m ≠ 0) (negative : Bool) :
    decide (signed negative m < 0) = negative := by
  cases negative with
  | false => simp [signed]
  | true => simpa [signed] using Nat.pos_of_ne_zero hm

/-- **A query writes a number that is whole as the shortest whole
number.** -/
theorem exists_isShortest {rank : Fin count} {v : Nat} (hv : v ≠ 0)
    (hunits : units rank = v * unitsOfOne) :
    ∃ m, IsShortest rank m ∧
      ∀ negative, (finite negative rank).queryText = integerText (signed negative m) := by
  obtain ⟨c, zeros, hshortest, hm⟩ := exists_shortest_eq rank.isLt hv hunits
  have hne : rank.val ≠ 0 := ne_zero_of_units_eq hv hunits
  have hpos : c * tenPow zeros ≠ 0 := by
    intro hzero
    have hreads := (rankOfNat_eq_iff rank.isLt).mpr hm.reads
    rw [hzero] at hreads
    exact hne hreads.symm
  refine ⟨c * tenPow zeros, hm, fun negative => ?_⟩
  obtain ⟨c', zeros', hstrip, hvalue⟩ := exists_stripUpTo_eq (decimalLength c) c zeros
  have hnumeral :
      Spelling.query.numeral negative rank = ⟨negative, c * tenPow zeros, [], none⟩ := by
    have hdecimal : shortest .up rank = ⟨c', zeros'⟩ := hshortest.trans hstrip
    simp only [Spelling.numeral, Spelling.query, if_neg hne, hdecimal]
    exact congrArg (fun n => (⟨negative, n, [], none⟩ : Numeral)) hvalue
  have htext := text_integer (signed negative (c * tenPow zeros))
  rw [decide_signed hpos, natAbs_signed] at htext
  rw [queryText, hnumeral, htext]

example : (finite false ⟨1086 * binade, by decide +kernel⟩).queryText = "9223372036854776000" := by
  decide +kernel

end Binary64

end LayerQuery
