import LayerQuery.Proofs.Gate
import LayerQuery.Proofs.Integers
import LayerQuery.Proofs.Matching
import LayerQuery.Proofs.Question
/-!
# One number, one spelling

A number is written in two ways. As an operand it is an integer or a
number of the format, as the type of the attribute has it. As text, for
the gate and for matches, it is an integer wherever it is a whole number
that is small enough. Where both choose the same there is nothing to
show. They part at an attribute of floating-point type: there a small
whole number is compared as a number of the format, and the digits of
this are those of the integer (`queryText_eq_integerText`), since the
shortest whole number for a magnitude that is exact is the magnitude
itself. Only zero with a minus sign keeps its sign in one way and loses
it in the other (`chars_numberOperand_eq_display_iff`).
-/

namespace LayerQuery

open Criteria Sql

namespace Binary64

/-- Zero with a minus sign. -/
def negativeZero : Binary64 := .finite true ⟨0, by decide +kernel⟩

theorem queryText_negativeZero : negativeZero.queryText = "-0" := by
  decide +kernel

theorem eq_zero_of_units_eq_zero {rank : Nat} (h : units rank = 0) : rank = 0 := by
  by_contra hne
  exact absurd h (units_pos hne).ne'

/-- **A small whole number has the digits of its integer**, whichever of
the two is written. -/
theorem queryText_eq_integerText {negative : Bool} {rank : Fin count} {v : Nat}
    (hunits : units rank = v * unitsOfOne) (hv : v < twoPow 53)
    (hsign : finite negative rank ≠ negativeZero) :
    (finite negative rank).queryText = integerText (signed negative v) := by
  rcases Nat.eq_zero_or_pos v with rfl | hpos
  · -- zero has no shortest digits to look for, but a sign to lose
    have hrank : rank = ⟨0, by decide +kernel⟩ :=
      Fin.ext (eq_zero_of_units_eq_zero (by rw [hunits, Nat.zero_mul]))
    subst hrank
    cases negative with
    | true => exact absurd rfl hsign
    | false => decide +kernel
  · obtain ⟨m, hm, htext⟩ := exists_isShortest hpos.ne' hunits
    have hself : IsShortest rank v := rankOfNat_of_units rank.isLt hunits ▸ isShortest_rankOfNat hv
    rw [htext negative, hm.unique hself]

end Binary64

namespace Criteria

open Binary64

/-- The text of the only value that is there. -/
theorem joinedText_of_present_eq {values : List (Option Value)} {v : Value}
    (h : present values = [v]) : joinedText values = v.display := by
  rw [joinedText, h, List.map_singleton, String.join_cons, String.join_nil, String.append_empty]

/-- A small whole number is shown as an integer. -/
theorem Value.display_of_toIntBelow? {x : Binary64} {n : Int}
    (h : x.toIntBelow? (tenPow 15) = some n) : (number x).display = integerText n := by
  rw [display, h]

/-- Any other number is shown as it is written in a query. -/
theorem Value.display_of_eq_none {x : Binary64} (h : x.toIntBelow? (tenPow 15) = none) :
    (number x).display = x.queryText := by
  rw [display, h]

namespace Test

theorem numberOperand_double (x : Binary64) : numberOperand (some .double) x = .real x :=
  if_pos rfl

/-- Unless the attribute is of floating-point type, a number is compared
as it is shown. -/
theorem chars_numberOperand_of_ne {type : Option AttributeType} (htype : type ≠ some .double)
    (x : Binary64) : (numberOperand type x).chars = (Value.number x).display.toList := by
  cases hsmall : x.toIntBelow? (tenPow 15) with
  | none =>
    have hoperand : numberOperand type x = .real x := by
      rw [numberOperand, if_neg htype, hsmall]
    rw [hoperand, Value.display_of_eq_none hsmall, Operand.chars]
  | some n =>
    have hoperand : numberOperand type x = .integer n := by
      rw [numberOperand, if_neg htype, hsmall]
    rw [hoperand, Value.display_of_toIntBelow? hsmall, Operand.chars]

/-- A number of the format is written as it is shown, unless it is zero
with a minus sign. -/
theorem queryText_eq_display {x : Binary64} (h : x ≠ negativeZero) :
    x.queryText = (Value.number x).display := by
  cases hsmall : x.toIntBelow? (tenPow 15) with
  | none => exact (Value.display_of_eq_none hsmall).symm
  | some n =>
    obtain ⟨negative, rank, v, rfl, hunits, hlt, rfl⟩ := toIntBelow?_eq_some_iff.mp hsmall
    have hexact : v < twoPow 53 := hlt.trans (by decide +kernel)
    rw [queryText_eq_integerText hunits hexact h, Value.display_of_toIntBelow? hsmall]

theorem display_negativeZero : (Value.number negativeZero).display = "0" := by
  decide +kernel

/-- **The two ways of writing a number agree**, but for zero with a minus
sign where the attribute is of floating-point type. -/
theorem chars_numberOperand_eq_display_iff {type : Option AttributeType} {x : Binary64} :
    (numberOperand type x).chars = (Value.number x).display.toList ↔
      ¬ (type = some .double ∧ x = negativeZero) := by
  by_cases htype : type = some .double
  · subst htype
    rw [numberOperand_double, Operand.chars, String.toList_inj]
    constructor
    · rintro h ⟨-, rfl⟩
      rw [queryText_negativeZero, display_negativeZero] at h
      exact absurd h (by decide)
    · exact fun h => queryText_eq_display fun hzero => h ⟨rfl, hzero⟩
  · exact iff_of_true (chars_numberOperand_of_ne htype x) fun h => htype h.1

/-- The operand of a number is a word. -/
theorem token_numberOperand (type : Option AttributeType) (x : Binary64) :
    (numberOperand type x).token = .word (numberOperand type x).chars := by
  unfold numberOperand
  split
  · rfl
  · split <;> rfl

/-- A match of a number looks for the text that shows it. -/
theorem exists_pattern_of_number {t : Test} {operator : Operator} {x : Binary64}
    {Finds : List Char → List Char → Prop}
    (hoperator : Operator.ofToken? t.operator = some operator)
    (hfinds : operator.finds? = some Finds) (hvalues : present t.values = [.number x]) :
    ∃ pattern : Pattern, pattern.text = (Value.number x).display ∧
      t.sql = .ok (Predicate.like t.attributeName (operator == .notContains) pattern).text := by
  have hjoined : joinedText t.values = (Value.number x).display := joinedText_of_present_eq hvalues
  have hsome : (Value.number x).display ≠ "" := fun h =>
    nomatch (Value.display_eq_empty_iff _).mp h
  have hsought : t.soughtText = .ok (Value.number x).display := by
    simp only [soughtText, hjoined, if_neg hsome]
  rw [sql_eq_of_ofToken? hoperator]
  cases operator with
  | contains | notContains | startsWith | endsWith =>
    rw [predicateOf, hsought]
    exact ⟨_, rfl, rfl⟩
  | _ => cases hfinds

/-- **One number, one spelling.** Take a test for equality of which the
only value is a number. Its query compares the column with an unquoted
word. This is the text that shows the number, the same that the gate sees
as its value and that the matches look for. The exception is zero with a
minus sign, and only if the attribute is of floating-point type. -/
theorem sql_equal_number {t : Test} {x : Binary64}
    (hoperator : Text.keyword t.operator ∈ Operator.equal.tokens)
    (hvalues : present t.values = [.number x]) :
    ∃ word q, t.sql = .ok q ∧ (Question.compare .equal (.word word)).IsIn t.attributeName q ∧
      (word = (Value.number x).display.toList ↔
        ¬ (t.attributeType = some .double ∧ x = negativeZero)) ∧
      (∀ c : Condition, c.values = some t.values → c.joined = some (Value.number x).display) ∧
      ∀ (token : String) (operator : Operator) (Finds : List Char → List Char → Prop),
        Operator.ofToken? token = some operator → operator.finds? = some Finds →
        ∃ pattern : Pattern, pattern.text = (Value.number x).display ∧
          { t with operator := token }.sql =
            .ok (Predicate.like t.attributeName (operator == .notContains) pattern).text := by
  have hoperand : operand t.attributeType (.number x) = .ok (numberOperand t.attributeType x) := rfl
  have hsql :=
    sql_eq_of_present_eq (Operator.ofToken?_eq_some_iff.mpr hoperator) rfl hvalues hoperand
  have hin := (Predicate.compare t.attributeName .equal (numberOperand t.attributeType x)).isIn_text
  rw [Predicate.question, token_numberOperand] at hin
  refine ⟨_, _, hsql, hin, chars_numberOperand_eq_display_iff, fun c hc => ?_,
    fun token operator Finds htoken hfinds => ?_⟩
  · rw [Condition.joined, hc, Option.map_some, joinedText_of_present_eq hvalues]
  · exact exists_pattern_of_number (t := { t with operator := token }) htoken hfinds hvalues

/-- A test of a floating-point attribute with the least number that is
still shown as an integer. -/
def heightTest : Test :=
  let least : Binary64 := .finite true ⟨rankOfNat 999999999999999, by decide +kernel⟩
  ⟨"1_height_eq", 1, "height", " EQ ", [none, some (.number least)], some .double⟩

/-- The number is compared as it is shown, and sought so as well. -/
theorem heightTest_sql_equal_number :
    Text.keyword heightTest.operator ∈ Operator.equal.tokens ∧
      ∃ (x : Binary64) (word : List Char) (q : String) (pattern : Pattern),
        present heightTest.values = [.number x] ∧ heightTest.sql = .ok q ∧
        (Question.compare .equal (.word word)).IsIn "height" q ∧
        word = "-999999999999999".toList ∧ pattern.text = "-999999999999999" ∧
        { heightTest with operator := "starts_with" }.sql =
          .ok (Predicate.like "height" false pattern).text := by
  have hoperator : Text.keyword heightTest.operator ∈ Operator.equal.tokens := by decide +kernel
  have hstarts : Operator.ofToken? "starts_with" = some .startsWith := by decide +kernel
  let least : Binary64 := .finite true ⟨rankOfNat 999999999999999, by decide +kernel⟩
  have hvalues : present heightTest.values = [.number least] := rfl
  have hdisplay : (Value.number least).display = "-999999999999999" := by decide +kernel
  have hnonzero : least ≠ negativeZero := by decide +kernel
  obtain ⟨word, q, hsql, hin, hword, -, hmatch⟩ := sql_equal_number hoperator hvalues
  obtain ⟨pattern, hpattern, hlike⟩ := hmatch _ _ _ hstarts rfl
  have hspelt := hword.mpr fun h => hnonzero h.2
  rw [hdisplay] at hspelt hpattern
  exact ⟨hoperator, least, word, q, pattern, hvalues, hsql, hin, hspelt, hpattern, hlike⟩

end Test

end Criteria

end LayerQuery
