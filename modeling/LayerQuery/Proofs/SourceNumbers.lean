import LayerQuery.Proofs.Exactness
import LayerQuery.Proofs.Integers
import LayerQuery.Proofs.Strays
import LayerQuery.Proofs.TypedIntegers
/-!
# Numbers that name a source

The source of a condition is a number in JSON, spelled in any way that
numbers are. Integer literals of a word are taken as they are. Any other
literal is read as a number of the format, and taken if this is a whole
number below `9 * 10 ^ 15`.

How a literal is rounded is the reader's affair. All that is assumed is
that it is rounded correctly (`Numeral.IsRoundedTo`). Small integers are
kept then (`IsRoundedTo.toIntBelow?_eq`), and what becomes one was small
(`IsRoundedTo.abs_value_lt`), so that what is taken is never another
integer than the one that was spelled (`readsSource_sourceOfNumeral?`). A
number that is not taken leaves the source unset and spoils nothing else
(`Condition.source_of_literal`).
-/

namespace LayerQuery

open Json Criteria

namespace Numeral

/-- The numeral has neither a point nor an exponent. -/
def IsPlain (n : Numeral) : Prop :=
  n.fraction = [] ∧ n.exponent = none

variable {n : Numeral} {m i : Int}

theorem IsPlain.value_eq (h : n.IsPlain) : n.value = signed n.negative n.whole := by
  rw [Numeral.value_eq, magnitude_of_fraction_eq_nil h.1, h.2, cast_signed, Decimal.value,
    Option.getD_none, zpow_zero, mul_one]

/-- The integers that are read from plain literals are those of a word,
signed or not; a zero with a minus sign is none. -/
theorem integerOfNumeral?_eq_some_iff : integerOfNumeral? n = some i ↔
    n.IsPlain ∧ i = signed n.negative n.whole ∧
      (if n.negative then 0 < n.whole ∧ n.whole ≤ twoPow 63 else n.whole < twoPow 64) := by
  have hplain : (n.fraction.isEmpty && n.exponent.isNone) = true ↔ n.IsPlain := by
    rw [Bool.and_eq_true, List.isEmpty_iff, Option.isNone_iff_eq_none, IsPlain]
  rw [integerOfNumeral?, ← hplain]
  cases n.negative with
  | false =>
    simp only [Bool.false_eq_true, if_false, signed, Option.ite_none_right_eq_some,
      Option.some.injEq, eq_comm (a := i)]
    exact and_congr_right fun _ => and_comm
  | true =>
    simp only [if_true, signed, Option.ite_none_right_eq_some, Option.some.injEq,
      eq_comm (a := i)]
    exact and_congr_right fun _ => and_comm

/-! ## Correct rounding -/

/-- The limit below which a number of the format is looked at for an integer. -/
theorem cast_limit : ((9 * tenPow 15 : Nat) : ℚ) = 9 * 10 ^ 15 := by
  rw [Nat.cast_mul, cast_tenPow, Nat.cast_ofNat]

namespace IsRoundedTo

open Binary64

variable {x : Binary64}

/-- **A small integer is kept**, however it is spelled. -/
theorem toIntBelow?_eq (hround : n.IsRoundedTo x) (h : n.value = m)
    (hm : m.natAbs < 9 * tenPow 15) : x.toIntBelow? (9 * tenPow 15) = some m := by
  obtain ⟨hmagnitude, hsign⟩ := magnitude_and_sign_of_value_eq h
  have hunits := units_rankOfNat (hm.le.trans (by decide +kernel) : m.natAbs ≤ twoPow 53)
  -- the integer is a magnitude, and no other one is as near
  have hunique {rank : Nat} (hrank : IsNearestTo rank (|n.value| * unitsOfOne)) :
      rank = rankOfNat m.natAbs := by
    rw [abs_value, hmagnitude, ← Nat.cast_mul, ← hunits] at hrank
    exact hrank.unique (isNearestTo_units _)
  cases hround with
  | @finite rank hrank =>
    rw [Binary64.toIntBelow?_eq ((hunique hrank) ▸ hunits), if_pos hm, hsign]
  | infinite hcount hrank =>
    have hfinite : rankOfNat m.natAbs < count := rankOfNat_lt_count (hm.trans (by decide +kernel))
    exact absurd hfinite (not_lt.mpr (hunique hrank ▸ hcount))

/-- **What becomes a small integer is small.** -/
theorem abs_value_lt (hround : n.IsRoundedTo x) (h : x.toIntBelow? (9 * tenPow 15) = some i) :
    |n.value| < 9 * 10 ^ 15 := by
  obtain ⟨negative, rank, v, rfl, hunits, hv, -⟩ := toIntBelow?_eq_some_iff.mp h
  cases hround with | finite hrank
  by_contra hlarge
  rw [not_lt, ← cast_limit] at hlarge
  -- the limit is a magnitude, and the value is rounded to one not below it
  have hlimit := units_rankOfNat (by decide +kernel : 9 * tenPow 15 ≤ twoPow 53)
  have hle : (units (rankOfNat (9 * tenPow 15)) : ℚ) ≤ |n.value| * unitsOfOne := by
    rw [hlimit, Nat.cast_mul]
    exact mul_le_mul_of_nonneg_right hlarge (Nat.cast_nonneg _)
  have hunits' := units_strictMono.monotone ((isNearestTo_units _).mono hrank hle)
  rw [hunits, hlimit] at hunits'
  exact absurd (Nat.le_of_mul_le_mul_right hunits' (twoPow_pos 1074)) (Nat.not_le.mpr hv)

end IsRoundedTo

/-! ## Which integers are taken -/

/-- Small integers are integers of a word. -/
theorem natAbs_lt_and_inWord (hm : |m| < 9 * 10 ^ 15) :
    m.natAbs < 9 * tenPow 15 ∧ -2 ^ 63 ≤ m ∧ m ≤ 2 ^ 63 - 1 := by
  have hlimit : 9 * tenPow 15 = 9 * 10 ^ 15 := by decide +kernel
  rw [abs_lt] at hm
  omega

/-- A plain literal of an integer of a word is read as it is, or it is a
zero. -/
theorem integerOfNumeral?_or_eq_zero (hplain : n.IsPlain) (h : n.value = m) (hlow : -2 ^ 63 ≤ m)
    (hhigh : m ≤ 2 ^ 63 - 1) : integerOfNumeral? n = some m ∨ m = 0 := by
  have hword : twoPow 63 = 2 ^ 63 := twoPow_eq 63
  have hlimit : twoPow 64 = 2 ^ 64 := twoPow_eq 64
  have hvalue : m = signed n.negative n.whole := Int.cast_injective (h.symm.trans hplain.value_eq)
  rw [integerOfNumeral?_eq_some_iff, hword, hlimit]
  cases hsign : n.negative with
  | false =>
    rw [hsign, signed, if_neg Bool.false_ne_true] at hvalue
    refine .inl ⟨hplain, by rw [hvalue, signed, if_neg Bool.false_ne_true], ?_⟩
    rw [if_neg Bool.false_ne_true]
    omega
  | true =>
    rw [hsign, signed, if_pos rfl] at hvalue
    rcases Nat.eq_zero_or_pos n.whole with hzero | hpos
    · exact .inr (by omega)
    · refine .inl ⟨hplain, by rw [hvalue, signed, if_pos rfl], ?_⟩
      rw [if_pos rfl]
      omega

/-- So an integer that the source takes is read as it is, or it is small. -/
theorem integerOfNumeral?_or_abs_lt (h : n.value = m)
    (hm : (n.IsPlain ∧ -2 ^ 63 ≤ m ∧ m ≤ 2 ^ 63 - 1) ∨ |m| < 9 * 10 ^ 15) :
    integerOfNumeral? n = some m ∨ |m| < 9 * 10 ^ 15 := by
  rcases hm with ⟨hplain, hlow, hhigh⟩ | hlt
  · rcases integerOfNumeral?_or_eq_zero hplain h hlow hhigh with hinteger | rfl
    · exact .inl hinteger
    · exact .inr (by decide)
  · exact .inr hlt

/-! ## What is read from a literal -/

/-- How the source of a condition is read from a literal. -/
structure ReadsSource (n : Numeral) (source : Option FeatureTypeId) : Prop where
  /-- A literal of an integer is read as this integer, if it is read. -/
  same : ∀ m : Int, n.value = m →
    source = none ∨ ∃ id : FeatureTypeId, source = some id ∧ id.toInt = m
  /-- It is read if it is plain and fits a signed word, or if the integer is small. -/
  taken : ∀ m : Int, n.value = m →
    (n.IsPlain ∧ -2 ^ 63 ≤ m ∧ m ≤ 2 ^ 63 - 1) ∨ |m| < 9 * 10 ^ 15 →
    ∃ id : FeatureTypeId, source = some id ∧ id.toInt = m
  /-- No other literal of a large number is read. -/
  refused : ¬ (n.IsPlain ∧ -2 ^ 63 ≤ n.value ∧ n.value ≤ 2 ^ 63 - 1) → 9 * 10 ^ 15 ≤ |n.value| →
    source = none

/-- What is read from the literal of an integer. -/
theorem readsSource_of_integer (h : integerOfNumeral? n = some i) :
    n.ReadsSource (if inWord i then some (Int64.ofInt i) else none) := by
  obtain ⟨hplain, rfl, -⟩ := integerOfNumeral?_eq_some_iff.mp h
  have hvalue := hplain.value_eq
  have htaken (hword : inWord (signed n.negative n.whole) = true) :
      (Int64.ofInt (signed n.negative n.whole)).toInt = signed n.negative n.whole := by
    obtain ⟨hlow, hhigh⟩ := inWord_iff.mp hword
    exact Int64.toInt_ofInt_of_le hlow (by omega)
  refine ⟨fun m hm => ?_, fun m hm hsmall => ?_, fun hother hlarge => ?_⟩
  · obtain rfl := Int.cast_injective (hm.symm.trans hvalue)
    split
    · next hword => exact .inr ⟨_, rfl, htaken hword⟩
    · exact .inl rfl
  · obtain rfl := Int.cast_injective (hm.symm.trans hvalue)
    have hword : inWord (signed n.negative n.whole) = true :=
      inWord_iff.mpr (hsmall.elim And.right fun hlt => (natAbs_lt_and_inWord hlt).2)
    rw [if_pos hword]
    exact ⟨_, rfl, htaken hword⟩
  · refine if_neg fun hword => hother ⟨hplain, ?_⟩
    rw [hvalue]
    exact_mod_cast inWord_iff.mp hword

/-- What is read from any other literal, if it is rounded correctly. -/
theorem readsSource_of_real {x : Binary64} (hround : n.IsRoundedTo x)
    (h : integerOfNumeral? n = none) :
    n.ReadsSource ((x.toIntBelow? (9 * tenPow 15)).map Int64.ofInt) := by
  have hsmall {m : Int} (hm : n.value = m) (hlt : |m| < 9 * 10 ^ 15) :
      ∃ id : FeatureTypeId,
        (x.toIntBelow? (9 * tenPow 15)).map Int64.ofInt = some id ∧ id.toInt = m := by
    obtain ⟨hbelow, hlow, hhigh⟩ := natAbs_lt_and_inWord hlt
    rw [hround.toIntBelow?_eq hm hbelow]
    exact ⟨_, rfl, Int64.toInt_ofInt_of_le hlow (by omega)⟩
  refine ⟨fun m hm => ?_, fun m hm htaken => ?_, fun _ hlarge => ?_⟩
  · cases hread : x.toIntBelow? (9 * tenPow 15) with
    | none => exact .inl rfl
    | some i =>
      -- what is taken is small, and small integers are kept
      have hlt : |m| < 9 * 10 ^ 15 := by
        have habs := hround.abs_value_lt hread
        rw [hm] at habs
        exact_mod_cast habs
      rw [← hread]
      exact .inr (hsmall hm hlt)
  · rcases integerOfNumeral?_or_abs_lt hm htaken with hinteger | hlt
    · cases h.symm.trans hinteger
    · exact hsmall hm hlt
  · cases hread : x.toIntBelow? (9 * tenPow 15) with
    | none => rfl
    | some i => exact absurd hlarge (not_le.mpr (hround.abs_value_lt hread))

variable [Rounding]

/-- **A source is never another integer than the literal spells**, and it
is unset for large numbers that are no plain literals of a word. -/
theorem readsSource_sourceOfNumeral?
    (hround : integerOfNumeral? n = none → n.IsRoundedTo (Rounding.round n)) :
    n.ReadsSource (sourceOfNumeral? n) := by
  rw [sourceOfNumeral?, numberOfNumeral?]
  cases hinteger : integerOfNumeral? n with
  | some i => exact readsSource_of_integer hinteger
  | none =>
    have hreal := readsSource_of_real (hround hinteger) hinteger
    revert hreal
    cases Rounding.round n <;> exact id

/-- **The integers that the source takes are numbers of the reader.** -/
theorem isSound_of_value_eq (hround : integerOfNumeral? n = none → n.IsRoundedTo (Rounding.round n))
    (h : n.value = m) (hm : (n.IsPlain ∧ -2 ^ 63 ≤ m ∧ m ≤ 2 ^ 63 - 1) ∨ |m| < 9 * 10 ^ 15) :
    (Document.number n).isSound = true := by
  rw [Document.isSound, numberOfNumeral?]
  cases hinteger : integerOfNumeral? n with
  | some i => rfl
  | none =>
    have hlt : |m| < 9 * 10 ^ 15 :=
      (integerOfNumeral?_or_abs_lt h hm).resolve_left fun hsome => by cases hinteger.symm.trans hsome
    obtain ⟨negative, rank, _, hnumber, -⟩ := Binary64.toIntBelow?_eq_some_iff.mp
      ((hround hinteger).toIntBelow?_eq h (natAbs_lt_and_inWord hlt).1)
    simp only [hnumber]
    rfl

end Numeral

namespace Criteria

open Document

variable {n : Numeral} {c : Condition} {d d' : Document} {text text' : String}

section

variable [Rounding]

/-- A condition whose source was put to a literal is read if the reader
has a number for the literal. -/
theorem Condition.ofText_of_isSound (hc : Condition.codec.ofText text = .ok c)
    (hd : d.IsTextOf text) (hchange : SourceChange (some (.number n)) d d')
    (hd' : d'.IsTextOf text') (hsound : (Document.number n).isSound = true) :
    Condition.codec.ofText text' = .ok { c with source := sourceOfNumeral? n } := by
  obtain ⟨d₀, hread, hcondition⟩ := Codec.ofText_eq_ok_iff.mp hc
  obtain ⟨rfl, -⟩ := Reading.mk.inj ((read_eq_iff_isTextOf.mpr hd).symm.trans hread)
  have hnumber : ∀ v, some (Document.number n) = some v → v.isSound = true ∧ v.depth ≤ 126 := by
    rintro _ ⟨rfl⟩
    exact ⟨hsound, Nat.zero_le _⟩
  obtain ⟨_, hc', rfl⟩ := Condition.carries_sourceChange hnumber d d' c hchange hcondition
  exact Codec.ofText_eq_ok_iff.mpr ⟨d', read_eq_iff_isTextOf.mpr hd', hc'⟩

/-- And it is not read otherwise. -/
theorem Condition.isSound_of_ofText {c' : Condition} (hc : Condition.codec.ofText text = .ok c)
    (hd : d.IsTextOf text) (hchange : SourceChange (some (.number n)) d d')
    (hd' : d'.IsTextOf text') (hc' : Condition.codec.ofText text' = .ok c') :
    (Document.number n).isSound = true := by
  obtain ⟨d₀, hread, hcondition⟩ := Codec.ofText_eq_ok_iff.mp hc
  obtain ⟨rfl, -⟩ := Reading.mk.inj ((read_eq_iff_isTextOf.mpr hd).symm.trans hread)
  obtain ⟨d₁, hread', hcondition'⟩ := Codec.ofText_eq_ok_iff.mp hc'
  obtain ⟨rfl, -⟩ := Reading.mk.inj ((read_eq_iff_isTextOf.mpr hd').symm.trans hread')
  have hgiven := hchange.given_source (Condition.read_within_eq_ok_iff.mp hcondition).1
  obtain ⟨-, -, hsource, -⟩ := Condition.read_within_eq_ok_iff.mp hcondition'
  rw [hgiven] at hsource
  have hsource : (if (Document.number n).isSound then Except.ok (sourceOfNumeral? n)
      else .error Fault.malformed) = .ok c'.source := hsource
  by_contra hunsound
  rw [if_neg hunsound] at hsource
  cases hsource

end

/-- **A source is never misread.** Let the source of a condition that can
be read be put to the literal of a number that the reader rounds
correctly, unless it is an integer of 64 bits. The condition is read again
exactly if the reader has a number for the literal, and all of it but the
source is as before. An integer is then read as itself or not at all. It
is read if the literal is plain and fits a signed word, and if it is below
`9 * 10 ^ 15`. From there on nothing else is read. -/
theorem Condition.source_of_literal [Rounding]
    (hround : integerOfNumeral? n = none → n.IsRoundedTo (Rounding.round n))
    (hc : Condition.codec.ofText text = .ok c) (hd : d.IsTextOf text)
    (hchange : SourceChange (some (.number n)) d d') (hd' : d'.IsTextOf text') :
    ((∃ c', Condition.codec.ofText text' = .ok c') ↔ (numberOfNumeral? n).isSome = true) ∧
    (∀ c', Condition.codec.ofText text' = .ok c' →
      ∃ source, c' = { c with source := source } ∧ n.ReadsSource source) ∧
    ∀ m : Int, n.value = m →
      (n.IsPlain ∧ -2 ^ 63 ≤ m ∧ m ≤ 2 ^ 63 - 1) ∨ |m| < 9 * 10 ^ 15 →
      ∃ c' id, Condition.codec.ofText text' = .ok c' ∧ c'.source = some id ∧ id.toInt = m := by
  have hread (hsound : (Document.number n).isSound = true) :
      Condition.codec.ofText text' = .ok { c with source := sourceOfNumeral? n } :=
    Condition.ofText_of_isSound hc hd hchange hd' hsound
  have hback {c' : Condition} (h : Condition.codec.ofText text' = .ok c') :
      (Document.number n).isSound = true := Condition.isSound_of_ofText hc hd hchange hd' h
  have hreads : n.ReadsSource (sourceOfNumeral? n) := Numeral.readsSource_sourceOfNumeral? hround
  rw [← Document.isSound]
  refine ⟨⟨?_, fun hsound => ⟨_, hread hsound⟩⟩, fun c' h => ?_, fun m hm htaken => ?_⟩
  · rintro ⟨c', h⟩
    exact hback h
  · obtain rfl := Except.ok.inj ((hread (hback h)).symm.trans h)
    exact ⟨_, rfl, hreads⟩
  · obtain ⟨id, hid, hsame⟩ := hreads.taken m hm htaken
    exact ⟨_, id, hread (Numeral.isSound_of_value_eq hround hm htaken), hid, hsame⟩

/-- A condition with this member for its source, if any. -/
def sourcedDocument (source : List Member) : Document :=
  .object ([(some "id", .ofText "criteria-1")] ++ source) true

/-- A literal is added for a source that was unset. -/
theorem sourceChange_sourcedDocument (n : Numeral) :
    SourceChange (some (.number n)) (sourcedDocument [])
      (sourcedDocument [(some "source", .number n)]) :=
  @SourceChange.added [_] [] _ (by decide)

/-- The text without a source. -/
def unsourcedText : String := "\x7b\"id\":\"criteria-1\"\x7d"

theorem isTextOf_unsourcedText : (sourcedDocument []).IsTextOf unsourcedText :=
  read_eq_iff_isTextOf.mp rfl

theorem ofText_unsourcedText :
    Condition.codec.ofText unsourcedText = .ok { id := "criteria-1" } := by
  decide +kernel

/-- An integer just below the limit is taken, with a point and an exponent,
and the limit itself is not. -/
theorem ofText_sourcedDocument :
    ∃ c below atLimit : Condition, ∃ id : FeatureTypeId,
      Condition.codec.ofText unsourcedText = .ok c ∧
      Condition.codec.ofText "\x7b\"id\":\"criteria-1\",\"source\":-8.999999999999999e15\x7d" =
        .ok below ∧ below.source = some id ∧ id.toInt = -8999999999999999 ∧
      Condition.codec.ofText "\x7b\"id\":\"criteria-1\",\"source\":9e15\x7d" = .ok atLimit ∧
      atLimit.source = none := by
  let small : Numeral := ⟨true, 8, List.replicate 15 9, some 15⟩
  let limit : Numeral := ⟨false, 9, [], some 15⟩
  have hsmall : (sourcedDocument [(some "source", .number small)]).IsTextOf
      "\x7b\"id\":\"criteria-1\",\"source\":-8.999999999999999e15\x7d" :=
    read_eq_iff_isTextOf.mp rfl
  have hlimit : (sourcedDocument [(some "source", .number limit)]).IsTextOf
      "\x7b\"id\":\"criteria-1\",\"source\":9e15\x7d" := read_eq_iff_isTextOf.mp rfl
  have hdigits : Digit.value (List.replicate 15 9) = 999999999999999 := by decide +kernel
  have hvalue : small.value = (-8999999999999999 : Int) := by
    norm_num [small, Numeral.value, hdigits]
  have hvalue' : limit.value = (9000000000000000 : Int) := by
    norm_num [limit, Numeral.value, Digit.value]
  obtain ⟨-, -, htaken⟩ := Condition.source_of_literal (fun _ => small.isRoundedTo_ofNumeral)
    ofText_unsourcedText isTextOf_unsourcedText (sourceChange_sourcedDocument small) hsmall
  obtain ⟨below, id, hbelow, hid, hsame⟩ := htaken _ hvalue (.inr (by decide))
  obtain ⟨hread, hsource, -⟩ := Condition.source_of_literal (fun _ => limit.isRoundedTo_ofNumeral)
    ofText_unsourcedText isTextOf_unsourcedText (sourceChange_sourcedDocument limit) hlimit
  obtain ⟨atLimit, hatLimit⟩ := hread.mpr (by decide +kernel)
  obtain ⟨source, rfl, hreads⟩ := hsource _ hatLimit
  have hnone : source = none := by
    refine hreads.refused (fun h => Option.some_ne_none _ h.1.2) ?_
    rw [hvalue']
    norm_num
  exact ⟨_, below, _, id, ofText_unsourcedText, hbelow, hid, hsame, hatLimit, hnone⟩

end Criteria

end LayerQuery
