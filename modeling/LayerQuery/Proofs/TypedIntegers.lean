import LayerQuery.Proofs.Integers
import LayerQuery.Proofs.Question
import LayerQuery.Proofs.Writing
/-!
# Integers typed as text

A value of an integer attribute may be given as it was typed: with blanks
around it, a sign, and zeros in front. The text is taken if and only if
it spells an integer of a signed word between its blanks
(`readInteger?_trim_eq_some_iff`). What was typed is then gone, and the
query has the integer in its one canonical form
(`isCanonical_integerText`). All operators that compare with a value
treat it alike, so a test with one such value has three parts: when it
compiles, what it compares with, and what is said otherwise
(`Test.sql_of_typed_integer`).
-/

namespace LayerQuery

open Json Criteria

/-! ## What is typed and what is written -/

/-- The text is an integer between blanks. -/
def TypesInteger (n : Int) (v : String) : Prop :=
  ∃ front body back, Text.AreBlank front ∧ Text.AreBlank back ∧ SpellsInteger n body ∧
    v.toList = front ++ (body ++ back)

/-- The canonical decimal form of an integer: a minus sign if it is below
zero, and no zero in front of other digits. -/
def IsCanonical (n : Int) (cs : List Char) : Prop :=
  ∃ ws, SpellsWhole n.natAbs ws ∧ cs = signChars (decide (n < 0)) ++ ws

theorem isCanonical_integerText (n : Int) : IsCanonical n (integerText n).toList := by
  refine ⟨_, spellsWhole_repr n.natAbs, ?_⟩
  rw [toList_integerText, signChars]
  simp only [decide_eq_true_eq]

theorem inWord_iff {n : Int} : inWord n = true ↔ -2 ^ 63 ≤ n ∧ n ≤ 2 ^ 63 - 1 := by
  have hword : twoPow 63 = 2 ^ 63 := twoPow_eq 63
  simp only [inWord, hword, Bool.and_eq_true, decide_eq_true_eq]
  omega

/-- A form of an integer holds no blank. -/
theorem SpellsInteger.isSolid {n : Int} {body : List Char} (h : SpellsInteger n body) :
    Text.IsSolid body := by
  cases h with
  | mk hsign d ds =>
    have hdigit : ∀ d : Digit, Text.isBlank d.toChar = false := by decide
    intro c hc
    rcases List.mem_append.mp hc with hc | hc
    · cases hsign with
      | none => cases hc
      | plus | minus =>
        rw [List.mem_singleton.mp hc]
        decide
    · obtain ⟨d', -, rfl⟩ := List.mem_map.mp hc
      exact hdigit d'

/-- **What is read from a typed text** is the integer between its blanks. -/
theorem readInteger?_trim_eq_some_iff {v : String} {n : Int} :
    readInteger? (Text.trim v) = some n ↔ TypesInteger n v ∧ -2 ^ 63 ≤ n ∧ n ≤ 2 ^ 63 - 1 := by
  rw [readInteger?_eq_some_iff, inWord_iff]
  refine and_congr_left fun _ => ?_
  constructor
  · intro h
    obtain ⟨front, back, hfront, hback, hv⟩ := Text.exists_blanks_around_trim v
    exact ⟨front, _, back, hfront, hback, h, hv⟩
  · rintro ⟨front, body, back, hfront, hback, h, hv⟩
    rwa [Text.toList_trim, hv, Text.trimChars_surrounded hfront h.isSolid hback]

/-! ## Operators that compare with a value -/

namespace Sql.Operator

/-- The comparison with an operand is a question about the column with this
operand alone. -/
theorem question_comparing {operator : Operator} {comparing : String → Operand → Predicate}
    (h : operator.comparing? = some comparing) (column : String) (o : Operand) :
    (comparing column o).column = column ∧
      (comparing column o).question.operands = [o.token] := by
  cases operator with
  | equal | unequal | greater | less | atLeast | atMost | oneOf | noneOf =>
    obtain rfl := Option.some.inj h
    exact ⟨rfl, rfl⟩
  | _ => cases h

end Sql.Operator

namespace Criteria.Test

open Sql

variable {t : Test} {operator : Operator} {comparing : String → Operand → Predicate} {v : Value}

/-- An only value that does not suit the type is complained about. -/
theorem complains_of_present_eq {problem : ValueProblem}
    (hcomparing : operator.comparing? = some comparing) (hvalues : present t.values = [v])
    (hmisfit : v.Misfit t.attributeType problem) : t.Complains operator problem := by
  have hfirst : t.FirstMisfit problem := ⟨[], v, [], hvalues, nofun, hmisfit⟩
  have hvalued : ¬ t.IsBlankBoolean := by
    rintro ⟨-, hnone⟩
    rw [hvalues] at hnone
    cases hnone
  cases operator with
  | equal | unequal => exact ⟨hvalued, .inr hfirst⟩
  | greater | less | atLeast | atMost => exact .inl (.inr hfirst)
  | oneOf | noneOf => exact .inr hfirst
  | _ => cases hcomparing

/-- **An integer attribute against a typed text.** Take a test of an
integer attribute with an operator that compares, and one text for its
only value. It compiles exactly if the text is an integer of a signed
word between blanks. Then the column is compared with this integer, in
its canonical form. Otherwise the test fails, and the failure quotes the
text as it was typed. -/
theorem sql_of_typed_integer {s : String} (htype : t.attributeType = some .integer)
    (htoken : Text.keyword t.operator ∈ operator.tokens)
    (hcomparing : operator.comparing? = some comparing) (hvalues : present t.values = [.text s]) :
    ((∃ q, t.sql = .ok q) ↔ ∃ n, TypesInteger n s ∧ -2 ^ 63 ≤ n ∧ n ≤ 2 ^ 63 - 1) ∧
    (∀ n, TypesInteger n s → -2 ^ 63 ≤ n → n ≤ 2 ^ 63 - 1 →
      ∃ q word, t.sql = .ok q ∧
        (comparing t.attributeName (.integer n)).question.IsIn t.attributeName q ∧
        (comparing t.attributeName (.integer n)).question.operands = [.word word] ∧
        IsCanonical n word) ∧
    ((¬ ∃ n, TypesInteger n s ∧ -2 ^ 63 ≤ n ∧ n ≤ 2 ^ 63 - 1) →
      ∃ e, t.sql = .error e ∧ e = .invalidValue t.attributeName t.operator (.notInteger s) ∧
        e.message = "Invalid value for '" ++ t.attributeName ++ "' (" ++ t.operator ++ "): " ++
          ("'" ++ s ++ "' is not an integer")) := by
  have hok {n : Int} (hn : TypesInteger n s ∧ -2 ^ 63 ≤ n ∧ n ≤ 2 ^ 63 - 1) :
      t.sql = .ok (comparing t.attributeName (.integer n)).text := by
    have hoperand : operand t.attributeType (.text s) = .ok (.integer n) := by
      rw [htype, operand, textOperand, readInteger?_trim_eq_some_iff.mpr hn]
    exact sql_eq_of_present_eq (Operator.ofToken?_eq_some_iff.mpr htoken) hcomparing hvalues
      hoperand
  have herror (hnone : ¬ ∃ n, TypesInteger n s ∧ -2 ^ 63 ≤ n ∧ n ≤ 2 ^ 63 - 1) :
      t.sql = .error (.invalidValue t.attributeName t.operator (.notInteger s)) := by
    have hmisfit : (Value.text s).Misfit t.attributeType (.notInteger s) := by
      rw [htype, ← operand_eq_error_iff, operand, textOperand]
      cases hread : readInteger? (Text.trim s) with
      | none => rfl
      | some n => exact absurd ⟨n, readInteger?_trim_eq_some_iff.mp hread⟩ hnone
    exact (((sql_outcome t).2 operator htoken).2 _).mpr
      ⟨_, rfl, complains_of_present_eq hcomparing hvalues hmisfit⟩
  refine ⟨⟨?_, ?_⟩, ?_, ?_⟩
  · rintro ⟨q, hq⟩
    by_contra hnone
    cases (herror hnone).symm.trans hq
  · rintro ⟨n, hn⟩
    exact ⟨_, hok hn⟩
  · intro n htyped hlow hhigh
    obtain ⟨hcolumn, hoperands⟩ :=
      Operator.question_comparing hcomparing t.attributeName (.integer n)
    have hin := (comparing t.attributeName (.integer n)).isIn_text
    rw [hcolumn] at hin
    exact ⟨_, _, hok ⟨htyped, hlow, hhigh⟩, hin, hoperands, isCanonical_integerText n⟩
  · exact fun hnone => ⟨_, herror hnone, rfl, rfl⟩

/-- A test of an integer attribute for not being a value that is typed
between blanks. -/
def typedTest (s : String) : Test :=
  ⟨"1_code_not_in", 1, "code", " Not_In ", [none, some (.text s)], some .integer⟩

/-- The least integer of a word is taken, zeros in front of it or not, and
its opposite is not. -/
theorem sql_typedTest :
    Text.keyword (typedTest "").operator ∈ Operator.noneOf.tokens ∧
      TypesInteger (-2 ^ 63) "\u3000-0009223372036854775808\t" ∧
      (∃ q word, (typedTest "\u3000-0009223372036854775808\t").sql = .ok q ∧
        (Question.member true [.word word]).IsIn "code" q ∧ IsCanonical (-2 ^ 63) word) ∧
      ∃ e, (typedTest " +9223372036854775808").sql = .error e ∧
        e.message =
          "Invalid value for 'code' ( Not_In ): ' +9223372036854775808' is not an integer" := by
  have htoken : Text.keyword (typedTest "").operator ∈ Operator.noneOf.tokens := by decide +kernel
  have hlow : readInteger? (Text.trim "\u3000-0009223372036854775808\t") = some (-2 ^ 63) := by
    decide +kernel
  have hhigh : readInteger? (Text.trim " +9223372036854775808") = none := by decide +kernel
  obtain ⟨htyped, hleast, hmost⟩ := readInteger?_trim_eq_some_iff.mp hlow
  obtain ⟨-, hok, -⟩ := sql_of_typed_integer (t := typedTest "\u3000-0009223372036854775808\t")
    rfl htoken rfl rfl
  obtain ⟨q, word, hq, hin, hword, hcanonical⟩ := hok _ htyped hleast hmost
  obtain ⟨-, -, herror⟩ := sql_of_typed_integer (t := typedTest " +9223372036854775808")
    rfl htoken rfl rfl
  obtain ⟨e, he, -, hmessage⟩ := herror fun ⟨n, hn⟩ => by
    rw [readInteger?_trim_eq_some_iff.mpr hn] at hhigh
    cases hhigh
  have hquestion : (Predicate.member "code" true [.integer (-2 ^ 63)]).question =
      .member true [.word word] := by
    rw [Predicate.question, List.map_singleton]
    exact congrArg (Question.member true) hword
  exact ⟨htoken, htyped, ⟨q, word, hq, hquestion ▸ hin, hcanonical⟩, e, he, hmessage⟩

end Criteria.Test

end LayerQuery
