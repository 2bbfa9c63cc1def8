import LayerQuery.Proofs.Query
/-!
# The gate, and values that are missing

The gate and the compiler each have a table of when a value is needed.
The gate wants a text from every condition but those on truth values and
those with the token `null`. The compiler goes by the operator: some look
at no value, most want one, and a match wants a text (`Operator.demand`,
`lacks_predicateOf_iff`). This file compares the two for conditions that
are otherwise filled in. They agree outside three cases
(`Condition.agrees_iff`): the gate waves truth values through whatever
they are compared with, holds back operators other than `null` that need
no value, and takes an empty text for no value.
-/

namespace LayerQuery

open Criteria Sql

namespace Sql

/-- What an operator asks of the values. -/
inductive Demand where
  /-- It looks at none. -/
  | nothing
  /-- There must be one, which may be an empty text. -/
  | operands
  /-- They must make up a text that is not empty. -/
  | pattern
  deriving DecidableEq

/-- The demand of an operator. -/
def Operator.demand : Operator → Demand
  | .isNull | .isNotNull | .isTrue | .isFalse => .nothing
  | .contains | .notContains | .startsWith | .endsWith => .pattern
  | .equal | .unequal | .greater | .less | .atLeast | .atMost | .oneOf | .noneOf => .operands

/-- The operator tests a truth value by itself where no value is given. -/
def Operator.TestsBare (operator : Operator) : Prop :=
  operator = .equal ∨ operator = .unequal

end Sql

/-! ## Values that say nothing -/

namespace Criteria

/-- Only the empty text is shown as nothing. -/
theorem Value.display_eq_empty_iff (v : Value) : v.display = "" ↔ v = .text "" := by
  have hne : ∀ {s : String}, s.toList ≠ [] → s ≠ "" := by
    rintro s hs rfl
    exact hs rfl
  cases v with
  | boolean b => cases b <;> decide
  | number x =>
    simp only [Value.display, reduceCtorEq, iff_false]
    split
    · exact hne (integerText_ne_nil _)
    · exact hne x.queryText_ne_nil
  | text s => simp only [Value.display, Value.text.injEq]

/-- So values have no text exactly when all that are there are empty. -/
theorem joinedText_eq_empty_iff (values : List (Option Value)) :
    joinedText values = "" ↔ ∀ v ∈ present values, v = .text "" := by
  unfold joinedText
  induction present values with
  | nil => simp
  | cons v vs ih =>
    rw [List.map_cons, String.join_cons, String.append_eq_empty_iff, ih,
      Value.display_eq_empty_iff, List.forall_mem_cons]

theorem joinedText_of_present_eq_nil {values : List (Option Value)} (h : present values = []) :
    joinedText values = "" := by
  rw [joinedText_eq_empty_iff, h]
  exact fun v hv => absurd hv List.not_mem_nil

end Criteria

/-! ## Failures for lack of a value -/

/-- There is no value where one is needed, in the words of a message. -/
def ValueProblem.IsLack (problem : ValueProblem) : Prop :=
  problem.message = "expected at least one value" ∨
    problem.message = "expected a non-empty pattern"

theorem ValueProblem.not_isLack_of_message_eq {problem : ValueProblem} (front rest : String)
    (h : problem.message = front ++ rest)
    (hvalue : ¬ front.toList <+: "expected at least one value".toList)
    (hpattern : ¬ front.toList <+: "expected a non-empty pattern".toList) : ¬ problem.IsLack := by
  have hopens : front.toList <+: problem.message.toList := by
    rw [h, String.toList_append]
    exact List.prefix_append _ _
  rintro (hmessage | hmessage)
  · rw [hmessage] at hopens
    exact hvalue hopens
  · rw [hmessage] at hopens
    exact hpattern hopens

/-- The two messages tell their problems from all others. -/
theorem ValueProblem.isLack_iff (problem : ValueProblem) :
    problem.IsLack ↔ problem = .noValue ∨ problem = .noPattern := by
  cases problem with
  | noValue => exact iff_of_true (.inl rfl) (.inl rfl)
  | noPattern => exact iff_of_true (.inr rfl) (.inr rfl)
  | notSingle n =>
    refine iff_of_false ?_ (by simp)
    exact not_isLack_of_message_eq "expected exactly one value, got " (Nat.repr n) rfl (by decide)
      (by decide)
  | notInteger s | notNumber s | notBoolean s =>
    refine iff_of_false ?_ (by simp)
    exact not_isLack_of_message_eq "'" _ String.append_assoc (by decide) (by decide)

/-- A result fails because there is no value. -/
def Lacks {α : Type} (result : Except CompileError α) : Prop :=
  ∃ name token problem, result = .error (.invalidValue name token problem) ∧ problem.IsLack

theorem not_lacks_ok {α : Type} (a : α) : ¬ Lacks (.ok a) := by
  rintro ⟨name, token, problem, h, -⟩
  cases h

theorem lacks_map_iff {α β : Type} {result : Except CompileError α} (f : α → β) :
    Lacks (result.map f) ↔ Lacks result := by
  simp only [Lacks, map_eq_error_iff]

namespace Criteria

namespace Test

variable {t : Test}

/-! ## What the compiler asks for -/

/-- The values do not meet the demand of an operator. -/
def Misses (type : Option AttributeType) (values : List (Option Value)) (operator : Operator) :
    Prop :=
  match operator.demand with
  | .nothing => False
  | .operands => present values = [] ∧ ¬ (operator.TestsBare ∧ type = some .boolean)
  | .pattern => joinedText values = ""

theorem lacksOperands_noValue_iff : t.LacksOperands .noValue ↔ present t.values = [] := by
  have hmisfit : ¬ t.FirstMisfit .noValue := fun ⟨_, _, _, _, _, h⟩ => h.ne_lack.1 rfl
  simp only [LacksOperands, hmisfit, and_true, or_false]

theorem not_lacksOperands_noPattern : ¬ t.LacksOperands .noPattern := by
  have hmisfit : ¬ t.FirstMisfit .noPattern := fun ⟨_, _, _, _, _, h⟩ => h.ne_lack.2 rfl
  simp only [LacksOperands, hmisfit, reduceCtorEq, and_false, or_false, not_false_eq_true]

theorem lacks_predicateOf_iff_complains (operator : Operator) :
    Lacks (t.predicateOf operator) ↔
      t.Complains operator .noValue ∨ t.Complains operator .noPattern := by
  constructor
  · rintro ⟨name, token, problem, h, hlack⟩
    obtain ⟨problem', heq, hcomplains⟩ := (predicateOf_eq_error_iff operator).mp h
    obtain ⟨-, -, rfl⟩ := CompileError.invalidValue.inj heq
    rcases problem.isLack_iff.mp hlack with rfl | rfl
    · exact .inl hcomplains
    · exact .inr hcomplains
  · rintro (h | h)
    · exact ⟨_, _, _, (predicateOf_eq_error_iff operator).mpr ⟨_, rfl, h⟩, .inl rfl⟩
    · exact ⟨_, _, _, (predicateOf_eq_error_iff operator).mpr ⟨_, rfl, h⟩, .inr rfl⟩

/-- **The compiler's table.** -/
theorem lacks_predicateOf_iff (operator : Operator) :
    Lacks (t.predicateOf operator) ↔ Misses t.attributeType t.values operator := by
  rw [lacks_predicateOf_iff_complains]
  cases operator with
  | isNull | isNotNull | isTrue | isFalse => exact or_self_iff
  | equal | unequal =>
    simp only [Complains, lacksOperands_noValue_iff, not_lacksOperands_noPattern, IsBlankBoolean,
      Misses, Operator.demand, Operator.TestsBare, reduceCtorEq, or_true, true_and, and_false,
      or_false]
    exact ⟨fun h => ⟨h.2, fun htype => h.1 ⟨htype, h.2⟩⟩,
      fun h => ⟨fun hblank => h.2 hblank.1, h.1⟩⟩
  | greater | less | atLeast | atMost =>
    simp only [Complains, lacksOperands_noValue_iff, not_lacksOperands_noPattern, HasTooMany,
      Misses, Operator.demand, Operator.TestsBare, reduceCtorEq, and_false, or_false, false_and,
      not_false_eq_true, and_true]
  | contains | notContains | startsWith | endsWith =>
    simp only [Complains, Misses, Operator.demand, joinedText, reduceCtorEq, and_false, and_true,
      false_or]
  | oneOf | noneOf =>
    simp only [Complains, lacksOperands_noValue_iff, not_lacksOperands_noPattern, Misses,
      Operator.demand, Operator.TestsBare, reduceCtorEq, or_false, false_and, not_false_eq_true,
      and_true]

theorem lacks_sql_iff {operator : Operator} (h : Operator.ofToken? t.operator = some operator) :
    Lacks t.sql ↔ Misses t.attributeType t.values operator := by
  rw [sql_eq_of_ofToken? h, lacks_map_iff]
  exact lacks_predicateOf_iff operator

/-- An operator that looks at no value always has a predicate. -/
theorem exists_sql_of_demand_eq_nothing {operator : Operator}
    (h : Operator.ofToken? t.operator = some operator) (hdemand : operator.demand = .nothing) :
    ∃ text, t.sql = .ok text := by
  rw [sql_eq_of_ofToken? h]
  cases operator with
  | isNull | isNotNull | isTrue | isFalse => exact ⟨_, rfl⟩
  | _ => cases hdemand

end Test

namespace Condition

variable {c : Condition} {operator : Operator}

/-- All that a condition needs but the values is there: a type, an
attribute with a name, a source, and a token of an operator. -/
structure IsFilledIn (c : Condition) (operator : Operator) : Prop where
  attributeType : c.attributeType.isSome = true
  attributeName : ∃ name, c.attributeName = some name ∧ name ≠ ""
  source : c.source.isSome = true
  operator : ∃ token, c.operator = some token ∧ Operator.ofToken? token = some operator

/-- A condition that is filled in is a test. -/
theorem IsFilledIn.exists_test (h : c.IsFilledIn operator) :
    ∃ t, c.test = .ok t ∧ Operator.ofToken? t.operator = some operator ∧
      t.attributeType = c.attributeType ∧ t.values = c.values.getD [] := by
  obtain ⟨name, hname, -⟩ := h.attributeName
  obtain ⟨source, hsource⟩ := Option.isSome_iff_exists.mp h.source
  obtain ⟨token, htoken, hoperator⟩ := h.operator
  refine ⟨⟨Test.idOf source name token, source, name, token, c.values.getD [], c.attributeType⟩, ?_,
    hoperator, rfl, rfl⟩
  simp only [Condition.test, hsource, hname, htoken]

theorem IsFilledIn.lacks_query_iff (h : c.IsFilledIn operator) :
    Lacks c.query ↔ Test.Misses c.attributeType (c.values.getD []) operator := by
  obtain ⟨t, ht, hoperator, htype, hvalues⟩ := h.exists_test
  rw [Condition.query_eq, ht, ← htype, ← hvalues, ← Test.lacks_sql_iff hoperator]
  simp only [Except.bind, lacks_map_iff]

/-! ## What the gate asks for -/

theorem hasValue_eq_false_iff : c.hasValue = false ↔ joinedText (c.values.getD []) = "" := by
  unfold hasValue joined
  cases c.values with
  | none => exact iff_of_true rfl rfl
  | some values => simp

theorem needsNoValue_eq_false_iff :
    c.needsNoValue = false ↔ c.attributeType ≠ some .boolean ∧ c.operator ≠ some "null" := by
  simp [needsNoValue, AttributeType.name]

theorem IsFilledIn.isNamed (h : c.IsFilledIn operator) : c.isNamed = true := by
  obtain ⟨name, hname, hne⟩ := h.attributeName
  obtain ⟨token, htoken, hoperator⟩ := h.operator
  have htokenNe : token ≠ "" := by
    rintro rfl
    exact absurd hoperator (by cases operator <;> decide)
  simp [Condition.isNamed, hname, htoken, h.attributeType, h.source, hne, htokenNe]

/-- **The gate's table.** -/
theorem IsFilledIn.isValid_eq_false_iff (h : c.IsFilledIn operator) :
    c.isValid = false ↔ (c.attributeType ≠ some .boolean ∧ c.operator ≠ some "null") ∧
      joinedText (c.values.getD []) = "" := by
  rw [isValid, h.isNamed, Bool.true_and, Bool.or_eq_false_iff, needsNoValue_eq_false_iff,
    hasValue_eq_false_iff]

/-- The token that the gate knows is that of a single operator. -/
theorem IsFilledIn.operator_ne_null (h : c.IsFilledIn operator)
    (hdemand : operator.demand ≠ .nothing) : c.operator ≠ some "null" := by
  intro hnull
  obtain ⟨token, htoken, hoperator⟩ := h.operator
  rw [hnull] at htoken
  obtain rfl := Option.some.inj htoken
  obtain rfl : Operator.isNull = operator := Option.some.inj hoperator
  exact hdemand rfl

/-! ## Where the two part -/

/-- The gate asks nothing of a truth value, but it is compared with
something that is not there, by another operator than equality. -/
structure IsWavedThrough (c : Condition) (operator : Operator) : Prop where
  isBoolean : c.attributeType = some .boolean
  misses : Test.Misses c.attributeType (c.values.getD []) operator

/-- The operator looks at no value, but the gate does not know it by its
token. -/
structure IsHeldBack (c : Condition) (operator : Operator) : Prop where
  not_boolean : c.attributeType ≠ some .boolean
  demand : operator.demand = .nothing
  token : c.operator ≠ some "null"
  noText : joinedText (c.values.getD []) = ""

/-- There are values to compare with, but all of them are empty texts. -/
structure IsBlank (c : Condition) (operator : Operator) : Prop where
  not_boolean : c.attributeType ≠ some .boolean
  demand : operator.demand = .operands
  isGiven : present (c.values.getD []) ≠ []
  noText : joinedText (c.values.getD []) = ""

theorem IsWavedThrough.lacks (h : c.IsFilledIn operator) (hwaved : c.IsWavedThrough operator) :
    c.isValid = true ∧ Lacks c.query := by
  refine ⟨?_, h.lacks_query_iff.mpr hwaved.misses⟩
  rw [← Bool.not_eq_false, h.isValid_eq_false_iff]
  exact fun hrefused => hrefused.1.1 hwaved.isBoolean

theorem IsHeldBack.compiles (h : c.IsFilledIn operator) (hheld : c.IsHeldBack operator) :
    c.isValid = false ∧ ∃ q, c.query = .ok q := by
  refine ⟨h.isValid_eq_false_iff.mpr ⟨⟨hheld.not_boolean, hheld.token⟩, hheld.noText⟩, ?_⟩
  obtain ⟨t, ht, hoperator, -, -⟩ := h.exists_test
  obtain ⟨text, htext⟩ := Test.exists_sql_of_demand_eq_nothing hoperator hheld.demand
  rw [Condition.query_eq, ht]
  simp only [Except.bind, htext, Except.map]
  exact ⟨_, rfl⟩

theorem IsBlank.not_lacks (h : c.IsFilledIn operator) (hblank : c.IsBlank operator) :
    c.isValid = false ∧ ¬ Lacks c.query := by
  have htoken : c.operator ≠ some "null" := h.operator_ne_null (by rw [hblank.demand]; decide)
  refine ⟨h.isValid_eq_false_iff.mpr ⟨⟨hblank.not_boolean, htoken⟩, hblank.noText⟩, ?_⟩
  rw [h.lacks_query_iff, Test.Misses, hblank.demand]
  exact fun hmiss => hblank.isGiven hmiss.1

/-- Outside the three cases a condition that is refused lacks a value,
and the other way round. -/
theorem IsFilledIn.isValid_eq_false_iff_lacks (h : c.IsFilledIn operator)
    (hwaved : ¬ c.IsWavedThrough operator) (hheld : ¬ c.IsHeldBack operator)
    (hblank : ¬ c.IsBlank operator) : c.isValid = false ↔ Lacks c.query := by
  rw [h.isValid_eq_false_iff, h.lacks_query_iff]
  constructor
  · rintro ⟨⟨htype, htoken⟩, hnoText⟩
    unfold Test.Misses
    cases hdemand : operator.demand with
    | nothing => exact hheld ⟨htype, hdemand, htoken, hnoText⟩
    | operands =>
      refine ⟨?_, fun hbare => htype hbare.2⟩
      by_contra hgiven
      exact hblank ⟨htype, hdemand, hgiven, hnoText⟩
    | pattern => exact hnoText
  · intro hmiss
    have htype : c.attributeType ≠ some .boolean := fun htype => hwaved ⟨htype, hmiss⟩
    unfold Test.Misses at hmiss
    cases hdemand : operator.demand with
    | nothing =>
      rw [hdemand] at hmiss
      exact hmiss.elim
    | operands =>
      rw [hdemand] at hmiss
      exact ⟨⟨htype, h.operator_ne_null (by rw [hdemand]; decide)⟩,
        joinedText_of_present_eq_nil hmiss.1⟩
    | pattern =>
      rw [hdemand] at hmiss
      exact ⟨⟨htype, h.operator_ne_null (by rw [hdemand]; decide)⟩, hmiss⟩

/-- **Gate and compiler agree on when a value is missing, but for three
cases.** -/
theorem agrees_iff (h : c.IsFilledIn operator) :
    ((c.isValid = false ↔ Lacks c.query) ↔
      ¬ (c.IsWavedThrough operator ∨ c.IsHeldBack operator ∨ c.IsBlank operator)) ∧
    (c.IsWavedThrough operator → c.isValid = true ∧ Lacks c.query) ∧
    (c.IsHeldBack operator → c.isValid = false ∧ ∃ q, c.query = .ok q) ∧
    (c.IsBlank operator → c.isValid = false ∧ ¬ Lacks c.query) := by
  refine ⟨⟨?_, fun hnone => ?_⟩, IsWavedThrough.lacks h, IsHeldBack.compiles h,
    IsBlank.not_lacks h⟩
  · rintro hagree (hwaved | hheld | hblank)
    · obtain ⟨hvalid, hlacks⟩ := hwaved.lacks h
      exact absurd (hagree.mpr hlacks) (by rw [hvalid]; decide)
    · obtain ⟨hrefused, q, hq⟩ := hheld.compiles h
      have hlacks := hagree.mp hrefused
      rw [hq] at hlacks
      exact not_lacks_ok q hlacks
    · obtain ⟨hrefused, hlacks⟩ := hblank.not_lacks h
      exact hlacks (hagree.mp hrefused)
  · simp only [not_or] at hnone
    exact h.isValid_eq_false_iff_lacks hnone.1 hnone.2.1 hnone.2.2

/-- A test for a value that is there: no value is filled in, and none is
looked at. -/
def answered : Condition where
  id := "c"
  source := some 1
  attributeName := some "a"
  attributeType := some .string
  operator := some "not_null"

theorem isFilledIn_answered : answered.IsFilledIn .isNotNull :=
  ⟨rfl, ⟨"a", rfl, by decide⟩, rfl, "not_null", rfl, by decide⟩

/-- So gate and compiler do not agree everywhere. -/
theorem not_forall_isValid_eq_false_iff_lacks :
    ¬ ∀ (c : Condition) (operator : Operator), c.IsFilledIn operator →
      (c.isValid = false ↔ Lacks c.query) := by
  intro hall
  have hrefused : answered.isValid = false := by decide +kernel
  have hquery : answered.query = .ok "\"a\" IS NOT NULL" := by decide +kernel
  have hlacks := (hall answered .isNotNull isFilledIn_answered).mp hrefused
  rw [hquery] at hlacks
  exact not_lacks_ok _ hlacks

/-- A truth value that is asked to be greater than nothing. -/
def dangling : Condition where
  id := "d"
  source := some 1
  attributeName := some "open"
  attributeType := some .boolean
  operator := some " GT "
  values := some [none]

theorem isFilledIn_dangling : dangling.IsFilledIn .greater :=
  ⟨rfl, ⟨"open", rfl, by decide⟩, rfl, " GT ", rfl, by decide +kernel⟩

theorem dangling_agrees_iff :
    dangling.IsFilledIn .greater ∧ dangling.IsWavedThrough .greater ∧
      ((dangling.isValid = false ↔ Lacks dangling.query) ↔
        ¬ (dangling.IsWavedThrough .greater ∨ dangling.IsHeldBack .greater ∨
          dangling.IsBlank .greater)) ∧
      (dangling.IsWavedThrough .greater → dangling.isValid = true ∧ Lacks dangling.query) ∧
      (dangling.IsHeldBack .greater → dangling.isValid = false ∧ ∃ q, dangling.query = .ok q) ∧
      (dangling.IsBlank .greater → dangling.isValid = false ∧ ¬ Lacks dangling.query) := by
  have hmisses : Test.Misses dangling.attributeType (dangling.values.getD []) .greater :=
    ⟨rfl, fun hbare => by simp [Operator.TestsBare] at hbare⟩
  exact ⟨isFilledIn_dangling, ⟨rfl, hmisses⟩, agrees_iff isFilledIn_dangling⟩

end Condition

end Criteria

end LayerQuery
