import LayerQuery.Proofs.Answers
import LayerQuery.Proofs.Outcome
/-!
# Operators that belong together

Some operators come in pairs that deny each other, and equality and its
denial are also memberships in a list. Where two tests differ in such a
pair of operators alone, either both fail, with the same problem, or both
compile, and the truth values of their queries go together for every
value of every column (`Criteria.Test.operators_cohere`).

A test looks at its operator in two places: the token is looked up, and
it is quoted in failures. What is compiled for an operator depends on
neither (`predicateOf_asking`). So two operators are compared on one test,
and the one that denies makes the denial of what the other one makes
(`predicateOf_opposite`).
-/

namespace LayerQuery

open Criteria Sql

namespace Sql.Operator

/-- The operator that denies what another one asks. -/
def opposite? : Operator → Option Operator
  | .equal => some .unequal
  | .unequal => some .equal
  | .greater => some .atMost
  | .less => some .atLeast
  | .atLeast => some .less
  | .atMost => some .greater
  | .contains => some .notContains
  | .notContains => some .contains
  | .oneOf => some .noneOf
  | .noneOf => some .oneOf
  | .isNull => some .isNotNull
  | .isNotNull => some .isNull
  | .isTrue => some .isFalse
  | .isFalse => some .isTrue
  | .startsWith | .endsWith => none

/-- The operator that asks of a list what another one asks of one value. -/
def listing? : Operator → Option Operator
  | .equal => some .oneOf
  | .unequal => some .noneOf
  | _ => none

/-- The operator compares with a truth value of its own. -/
def asksTruth (o : Operator) : Bool :=
  o == .isTrue || o == .isFalse

end Sql.Operator

namespace Criteria.Test

/-- The test with another token. -/
def asking (t : Test) (token : String) : Test := { t with operator := token }

/-- The failure with another token. -/
def quoting (token : String) : CompileError → CompileError
  | .invalidValue name _ problem => .invalidValue name token problem
  | e => e

/-! ## The token is only quoted -/

variable (t : Test) (token : String)

theorem operands_asking : (t.asking token).operands = t.operands.mapError (quoting token) := by
  simp only [operands, asking]
  cases (present t.values).mapM (operand t.attributeType) with
  | error problem => rfl
  | ok os =>
    simp only [bind, Except.bind, Except.mapError]
    split <;> rfl

theorem singleOperand_asking :
    (t.asking token).singleOperand = t.singleOperand.mapError (quoting token) := by
  rw [singleOperand, operands_asking, singleOperand]
  cases t.operands with
  | error e => rfl
  | ok os =>
    match os with
    | [] | [_] | _ :: _ :: _ => rfl

theorem equality_asking (negated : Bool) :
    (t.asking token).equality negated = (t.equality negated).mapError (quoting token) := by
  rw [equality, operands_asking, equality]
  cases t.operands with
  | error e => rfl
  | ok os =>
    match os with
    | [] | [_] | _ :: _ :: _ => rfl

theorem soughtText_asking :
    (t.asking token).soughtText = t.soughtText.mapError (quoting token) := by
  unfold soughtText asking
  by_cases h : joinedText t.values = ""
  · simp only [h, if_true]
    rfl
  · simp only [h, if_false]
    rfl

theorem mapError_map {ε δ α β : Type} (x : Except ε α) (f : ε → δ) (g : α → β) :
    (x.mapError f).map g = (x.map g).mapError f := by
  cases x <;> rfl

/-- **What an operator makes of a test does not depend on its token**, which is only quoted. -/
theorem predicateOf_asking (o : Operator) :
    (t.asking token).predicateOf o = (t.predicateOf o).mapError (quoting token) := by
  cases o with
  | isNull | isNotNull | isTrue | isFalse => rfl
  | equal | unequal =>
    simp only [predicateOf, equality_asking]
    have hbare : (t.asking token).isBare = t.isBare := rfl
    rw [hbare]
    split <;> rfl
  | greater | less | atLeast | atMost =>
    simp only [predicateOf, singleOperand_asking]
    exact mapError_map ..
  | contains | notContains | startsWith | endsWith =>
    simp only [predicateOf, soughtText_asking]
    exact mapError_map ..
  | oneOf | noneOf =>
    simp only [predicateOf, operands_asking]
    exact mapError_map ..

/-! ## Pairs of operators -/

variable {t token}

theorem equality_not (negated : Bool) :
    t.equality (!negated) = (t.equality negated).map Predicate.negated := by
  rw [equality, equality]
  cases t.operands with
  | error e => rfl
  | ok os =>
    match os with
    | [] | _ :: _ :: _ => rfl
    | [_] => cases negated <;> rfl

theorem map_negated {α : Type} {x : Except CompileError α} {f g : α → Predicate}
    (h : ∀ a, g a = (f a).negated) : x.map g = (x.map f).map Predicate.negated := by
  cases x with
  | error e => rfl
  | ok a => exact congrArg Except.ok (h a)

/-- **The opposite operator makes the denial.** -/
theorem predicateOf_opposite {o o' : Operator} (h : o.opposite? = some o')
    (htruth : o.asksTruth = false) :
    t.predicateOf o' = (t.predicateOf o).map Predicate.negated := by
  cases o with
  | isTrue | isFalse => cases htruth
  | startsWith | endsWith => cases h
  | isNull | isNotNull =>
    obtain rfl := Option.some.inj h
    rfl
  | equal =>
    obtain rfl := Option.some.inj h
    simp only [predicateOf]
    split
    · rfl
    · exact equality_not false
  | unequal =>
    obtain rfl := Option.some.inj h
    simp only [predicateOf]
    split
    · rfl
    · exact equality_not true
  | greater | less | atLeast | atMost | contains | notContains | oneOf | noneOf =>
    obtain rfl := Option.some.inj h
    exact map_negated fun _ => rfl

/-- A value of a column of truth values is false exactly if it is not true. -/
theorem truth_false_of_isBoolean {α : Type} [LinearOrder α] {K : Column α} (h : K.IsBoolean)
    (x : Option α) :
    Comparison.equal.truth x (K.value (Operand.boolean false).token) =
      (Comparison.equal.truth x (K.value (Operand.boolean true).token)).not := by
  obtain ⟨yes, no, hyes, hno, hne, hall⟩ := h
  change Comparison.equal.truth x (K.value (.word "FALSE".toList)) =
    (Comparison.equal.truth x (K.value (.word "TRUE".toList))).not
  rw [hyes, hno]
  cases x with
  | none => rfl
  | some a =>
    refine Truth.of_eq_not_of ⟨fun hfalse htrue => hne (htrue.symm.trans hfalse), fun htrue => ?_⟩
    exact (hall a).resolve_left htrue

/-- Two queries of a column go together: for every value of every column, the truth value of the
second one is made of that of the first one. Only columns of truth values may matter. -/
def GoTogether (turn : Truth → Truth) (onlyBoolean : Bool) (column q q' : String) : Prop :=
  ∃ question question' : Question, question.IsIn column q ∧ question'.IsIn column q' ∧
    ∀ (α : Type) [LinearOrder α] (K : Column α) (x : Option α),
      (onlyBoolean = true → K.IsBoolean) →
        ∃ b, question.truth? K x = some b ∧ question'.truth? K x = some (turn b)

theorem goTogether_text {turn : Truth → Truth} {onlyBoolean : Bool} {column : String}
    {p p' : Predicate} (hp : p.column = column) (hp' : p'.column = column)
    (h : ∀ (α : Type) [LinearOrder α] (K : Column α) (x : Option α),
      (onlyBoolean = true → K.IsBoolean) →
        p'.question.truth? K x = (p.question.truth? K x).map turn) :
    GoTogether turn onlyBoolean column p.text p'.text := by
  refine ⟨p.question, p'.question, hp ▸ p.isIn_text, hp' ▸ p'.isIn_text, fun α _ K x hK => ?_⟩
  obtain ⟨b, hb⟩ := p.exists_truth? K x
  exact ⟨b, hb, by rw [h α K x hK, hb, Option.map_some]⟩

/-- **Opposite operators fail alike, or make opposite queries.** -/
theorem opposite_cases {o o' : Operator} (h : o.opposite? = some o') :
    (∃ problem, t.predicateOf o = .error (t.invalid problem) ∧
      t.predicateOf o' = .error (t.invalid problem)) ∨
    ∃ p p', t.predicateOf o = .ok p ∧ t.predicateOf o' = .ok p' ∧
      GoTogether Truth.not o.asksTruth t.attributeName p.text p'.text := by
  cases htruth : o.asksTruth with
  | false =>
    have hnegated : t.predicateOf o' = (t.predicateOf o).map Predicate.negated :=
      predicateOf_opposite h htruth
    cases hp : t.predicateOf o with
    | error e =>
      obtain ⟨problem, rfl, -⟩ := (predicateOf_eq_error_iff o).mp hp
      rw [hp] at hnegated
      exact .inl ⟨problem, rfl, hnegated⟩
    | ok p =>
      rw [hp] at hnegated
      have hcolumn := column_of_predicateOf hp
      refine .inr ⟨p, p.negated, rfl, hnegated, ?_⟩
      refine goTogether_text hcolumn (p.column_negated.trans hcolumn) fun α _ K x _ => ?_
      rw [p.question_negated, Question.truth?_negated]
  | true =>
    -- the two truth values are opposites where there are no other values
    cases o with
    | isTrue =>
      obtain rfl := Option.some.inj h
      refine .inr ⟨_, _, rfl, rfl, goTogether_text rfl rfl fun α _ K x hK => ?_⟩
      exact congrArg some (truth_false_of_isBoolean (hK rfl) x)
    | isFalse =>
      obtain rfl := Option.some.inj h
      refine .inr ⟨_, _, rfl, rfl, goTogether_text rfl rfl fun α _ K x hK => ?_⟩
      have hfalse := congrArg Truth.not (truth_false_of_isBoolean (hK rfl) x)
      rw [Truth.not_not] at hfalse
      exact congrArg some hfalse.symm
    | _ => cases htruth

/-- Equality is membership, and is written so for more than one value. -/
theorem equality_cases (negated : Bool) :
    (∃ problem, t.equality negated = .error (t.invalid problem) ∧
      t.operands.map (Predicate.member t.attributeName negated) = .error (t.invalid problem)) ∨
    ∃ p p', t.equality negated = .ok p ∧
      t.operands.map (Predicate.member t.attributeName negated) = .ok p' ∧
      GoTogether (fun b => b) false t.attributeName p.text p'.text ∧
      (1 < (present t.values).length → p.text = p'.text) := by
  cases hos : t.operands with
  | error e =>
    obtain ⟨problem, rfl, -⟩ := operands_eq_error_iff.mp hos
    exact .inl ⟨problem, by rw [equality, hos]; rfl, rfl⟩
  | ok os =>
    have hsame : ∀ p : Predicate, p.column = t.attributeName →
        GoTogether (fun b => b) false t.attributeName p.text p.text :=
      fun p hp => goTogether_text hp hp fun α _ K x _ => Option.map_id'.symm
    rw [equality, hos]
    match os with
    | [] | _ :: _ :: _ => exact .inr ⟨_, _, rfl, rfl, hsame _ rfl, fun _ => rfl⟩
    | [o] =>
      have hcount : ¬ 1 < (present t.values).length := by
        rw [← length_of_operands_eq_ok hos]
        exact lt_irrefl 1
      refine .inr ⟨_, _, rfl, rfl, goTogether_text rfl rfl fun α _ K x _ => ?_,
        fun h => absurd h hcount⟩
      rw [Option.map_id']
      cases negated with
      | false => exact (Question.truth?_compare_equal K x o.token).symm
      | true => exact (Question.truth?_compare_unequal K x o.token).symm

theorem listing_cases {o o' : Operator} (h : o.listing? = some o')
    (hvalues : present t.values ≠ []) :
    (∃ problem, t.predicateOf o = .error (t.invalid problem) ∧
      t.predicateOf o' = .error (t.invalid problem)) ∨
    ∃ p p', t.predicateOf o = .ok p ∧ t.predicateOf o' = .ok p' ∧
      GoTogether (fun b => b) false t.attributeName p.text p'.text ∧
      (1 < (present t.values).length → p.text = p'.text) := by
  have hbare : ¬ t.isBare = true := fun hbare => hvalues (isBare_iff.mp hbare).2
  cases o with
  | equal =>
    obtain rfl := Option.some.inj h
    simp only [predicateOf, if_neg hbare]
    exact equality_cases false
  | unequal =>
    obtain rfl := Option.some.inj h
    simp only [predicateOf, if_neg hbare]
    exact equality_cases true
  | _ => cases h

/-- With either token a test fails, and with the same problem, or it compiles, and the two queries
are related. -/
def Coheres (t : Test) (token token' : String) (R : String → String → Prop) : Prop :=
  (∃ problem,
    (t.asking token).sql = .error (.invalidValue t.attributeName token problem) ∧
    (t.asking token').sql = .error (.invalidValue t.attributeName token' problem)) ∨
  ∃ q q', (t.asking token).sql = .ok q ∧ (t.asking token').sql = .ok q' ∧ R q q'

theorem coheres_of_predicateOf {token token' : String} {o o' : Operator} {R : String → String → Prop}
    (htoken : Text.keyword token ∈ o.tokens) (htoken' : Text.keyword token' ∈ o'.tokens)
    (h : (∃ problem, t.predicateOf o = .error (t.invalid problem) ∧
        t.predicateOf o' = .error (t.invalid problem)) ∨
      ∃ p p', t.predicateOf o = .ok p ∧ t.predicateOf o' = .ok p' ∧ R p.text p'.text) :
    t.Coheres token token' R := by
  have hsql : (t.asking token).sql = ((t.asking token).predicateOf o).map Predicate.text :=
    sql_eq_of_mem_tokens htoken
  have hsql' : (t.asking token').sql = ((t.asking token').predicateOf o').map Predicate.text :=
    sql_eq_of_mem_tokens htoken'
  rw [predicateOf_asking] at hsql hsql'
  rcases h with ⟨problem, hp, hp'⟩ | ⟨p, p', hp, hp', hR⟩
  · exact .inl ⟨problem, by rw [hsql, hp]; rfl, by rw [hsql', hp']; rfl⟩
  · exact .inr ⟨p.text, p'.text, by rw [hsql, hp]; rfl, by rw [hsql', hp']; rfl, hR⟩

/-- **Operators cohere.** Take a test and two tokens in place of its own. If the operators of the
tokens are opposites, then with either token the test fails with the same problem, or it compiles,
and for every value of every column the query with the second token comes to the opposite of what
the query with the first one comes to; the tests for true and for false do so on columns of truth
values. If a value is there, equality goes with membership in the same way, and inequality with its
denial: the two queries come to the same, and from two values on they are one text. -/
theorem operators_cohere (t : Test) {token token' : String} {o o' : Operator}
    (htoken : Text.keyword token ∈ o.tokens) (htoken' : Text.keyword token' ∈ o'.tokens) :
    (o.opposite? = some o' →
      t.Coheres token token' (GoTogether Truth.not o.asksTruth t.attributeName)) ∧
    (o.listing? = some o' → present t.values ≠ [] →
      t.Coheres token token' fun q q' =>
        GoTogether (fun b => b) false t.attributeName q q' ∧
          (1 < (present t.values).length → q = q')) :=
  ⟨fun h => coheres_of_predicateOf htoken htoken' (opposite_cases h),
    fun h hvalues => coheres_of_predicateOf htoken htoken' (listing_cases h hvalues)⟩

/-- A test of a level against two values, both given as texts. -/
def levelTest : Test :=
  ⟨"1_level_eq", 1, "level", "eq", [some (.text "3"), none, some (.text " +05")], some .integer⟩

/-- The queries of the three tests are related, and not the failures. -/
theorem levelTest_operators_cohere :
    (levelTest.asking "eq").sql = .ok "\"level\" IN (3, 5)" ∧
      (levelTest.asking " NE ").sql = .ok "\"level\" NOT IN (3, 5)" ∧
      GoTogether Truth.not false "level" "\"level\" IN (3, 5)" "\"level\" NOT IN (3, 5)" ∧
      (levelTest.asking "In").sql = (levelTest.asking "eq").sql := by
  have hequal : Text.keyword "eq" ∈ Operator.equal.tokens := by decide +kernel
  have hunequal : Text.keyword " NE " ∈ Operator.unequal.tokens := by decide +kernel
  have honeOf : Text.keyword "In" ∈ Operator.oneOf.tokens := by decide +kernel
  have hsql : (levelTest.asking "eq").sql = .ok "\"level\" IN (3, 5)" := by decide +kernel
  have hsql' : (levelTest.asking " NE ").sql = .ok "\"level\" NOT IN (3, 5)" := by decide +kernel
  have hopposite := (operators_cohere levelTest hequal hunequal).1 rfl
  have hlisting := (operators_cohere levelTest hequal honeOf).2 rfl (List.cons_ne_nil _ _)
  refine ⟨hsql, hsql', ?_, ?_⟩
  · rcases hopposite with ⟨problem, hfails, -⟩ | ⟨q, q', hq, hq', htogether⟩
    · cases hsql.symm.trans hfails
    · obtain rfl := Except.ok.inj (hsql.symm.trans hq)
      obtain rfl := Except.ok.inj (hsql'.symm.trans hq')
      exact htogether
  · rcases hlisting with ⟨problem, hfails, -⟩ | ⟨q, q', hq, hq', -, hsame⟩
    · cases hsql.symm.trans hfails
    · rw [hq, hq', hsame (by decide)]

end Criteria.Test

end LayerQuery
