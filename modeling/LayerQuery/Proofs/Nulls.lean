import LayerQuery.Proofs.Gate
/-!
# Nulls among the values

A list of values may hold nulls, may hold nothing else, may be empty or
may be unset. Gate and compiler take different ways through these, but
all they look at is which values are there: operands are read and counted
over those, texts are joined from them, and a test is bare when there is
none of them. So the nulls can be left out (`Condition.isValid_withoutNulls`,
`Condition.query_withoutNulls`), and conditions with the same values in
the same order are then the same condition.
-/

namespace LayerQuery

namespace Criteria

/-! ## Values without the nulls -/

/-- The values that are there, and nothing else. -/
def withoutNulls (values : List (Option Value)) : List (Option Value) :=
  (present values).map some

@[simp] theorem present_withoutNulls (values : List (Option Value)) :
    present (withoutNulls values) = present values := by
  simp [withoutNulls, present]

@[simp] theorem joinedText_withoutNulls (values : List (Option Value)) :
    joinedText (withoutNulls values) = joinedText values := by
  rw [joinedText, present_withoutNulls, joinedText]

/-! ## Tests -/

namespace Test

/-- The test of the values that are there. -/
def withoutNulls (t : Test) : Test :=
  { t with values := Criteria.withoutNulls t.values }

variable (t : Test)

theorem operands_withoutNulls : t.withoutNulls.operands = t.operands := by
  simp only [operands, withoutNulls, present_withoutNulls]
  rfl

theorem singleOperand_withoutNulls : t.withoutNulls.singleOperand = t.singleOperand := by
  rw [singleOperand, operands_withoutNulls, singleOperand]
  rfl

theorem equality_withoutNulls (negated : Bool) :
    t.withoutNulls.equality negated = t.equality negated := by
  rw [equality, operands_withoutNulls, equality]
  rfl

theorem soughtText_withoutNulls : t.withoutNulls.soughtText = t.soughtText := by
  simp only [soughtText, withoutNulls, joinedText_withoutNulls]
  rfl

/-- A list of nulls is bare, as an empty one is. -/
theorem isBare_withoutNulls : t.withoutNulls.isBare = t.isBare := by
  rw [Bool.eq_iff_iff, isBare_iff, isBare_iff]
  simp only [IsBlankBoolean, withoutNulls, present_withoutNulls]

/-- **No operator looks at a null.** -/
theorem predicateOf_withoutNulls (o : Sql.Operator) :
    t.withoutNulls.predicateOf o = t.predicateOf o := by
  cases o with
  | isNull | isNotNull | isTrue | isFalse => rfl
  | equal | unequal =>
    simp only [predicateOf, isBare_withoutNulls, equality_withoutNulls]
    rfl
  | greater | less | atLeast | atMost =>
    simp only [predicateOf, singleOperand_withoutNulls]
    rfl
  | contains | notContains | startsWith | endsWith =>
    simp only [predicateOf, soughtText_withoutNulls]
    rfl
  | oneOf | noneOf =>
    simp only [predicateOf, operands_withoutNulls]
    rfl

theorem sql_withoutNulls : t.withoutNulls.sql = t.sql := by
  have hof : t.withoutNulls.predicateOf = t.predicateOf := funext t.predicateOf_withoutNulls
  have hoperator : t.withoutNulls.operator = t.operator := rfl
  rw [sql, predicate, hof, hoperator, sql, predicate]

end Test

/-! ## Conditions -/

namespace Condition

/-- The condition on the values that are there. They are set, if to an
empty list. -/
def withoutNulls (c : Condition) : Condition :=
  { c with values := some (Criteria.withoutNulls (c.values.getD [])) }

variable (c : Condition)

theorem test_withoutNulls : c.withoutNulls.test = c.test.map Test.withoutNulls := by
  simp only [Condition.test, withoutNulls]
  cases c.source with
  | none => rfl
  | some source =>
    cases c.attributeName with
    | none => rfl
    | some name =>
      cases c.operator with
      | none => rfl
      | some operator => rfl

/-- **The query is that of the values that are there.** -/
theorem query_withoutNulls : c.withoutNulls.query = c.query := by
  rw [query_eq, test_withoutNulls, query_eq]
  cases c.test with
  | error e => rfl
  | ok t =>
    have hrelated : c.withoutNulls.relatedTo = c.relatedTo := rfl
    have htype : t.withoutNulls.featureType = t.featureType := rfl
    simp only [Except.map, Except.bind, Test.sql_withoutNulls, hrelated, htype]

/-- **And so is the validity**: an unset list has no text, and a list of
nulls has an empty one. -/
theorem isValid_withoutNulls : c.withoutNulls.isValid = c.isValid := by
  have hvalue : c.withoutNulls.hasValue = c.hasValue := by
    rw [← Bool.not_inj_iff, Bool.eq_iff_iff, Bool.not_eq_true', Bool.not_eq_true',
      hasValue_eq_false_iff, hasValue_eq_false_iff, withoutNulls, Option.getD_some,
      joinedText_withoutNulls]
  rw [isValid, hvalue, isValid]
  rfl

/-- **Nulls mean nothing.** Two conditions that differ in their values
alone, and there only in the nulls among them or in being unset, pass the
gate both or neither, and have one query or one failure. -/
theorem isValid_and_query_eq_of_present_eq {c c' : Condition}
    (hfields : c' = { c with values := c'.values })
    (hvalues : present (c.values.getD []) = present (c'.values.getD [])) :
    c.isValid = c'.isValid ∧ c.query = c'.query := by
  have hsame : c.withoutNulls = c'.withoutNulls := by
    rw [withoutNulls, withoutNulls, Criteria.withoutNulls, hvalues, hfields]
    rfl
  rw [← c.isValid_withoutNulls, ← c.query_withoutNulls, hsame]
  exact ⟨c'.isValid_withoutNulls, c'.query_withoutNulls⟩

/-- Whether the doors of a house are open, without a value. -/
def whetherOpen : Condition where
  id := "c"
  source := some 9
  attributeName := some "open"
  attributeType := some .boolean
  operator := some "="
  relatedTo := some [5, 7]

/-- The same with two nulls for its values. -/
def whetherOpenNulls : Condition :=
  { whetherOpen with values := some [none, none] }

/-- With nulls for its values the test is still of the attribute itself. -/
theorem whetherOpenNulls_query_eq :
    whetherOpenNulls = { whetherOpen with values := whetherOpenNulls.values } ∧
    present (whetherOpen.values.getD []) = present (whetherOpenNulls.values.getD []) ∧
    whetherOpenNulls.isValid = true ∧
    whetherOpenNulls.query =
      .ok "RELATED_LAYER(5, 7, RELATED_LAYER(7, 9, \"open\" = TRUE))" := by
  have hvalues : present (whetherOpen.values.getD []) = present (whetherOpenNulls.values.getD []) :=
    rfl
  have hfields : whetherOpenNulls = { whetherOpen with values := whetherOpenNulls.values } := rfl
  obtain ⟨hvalid, hquery⟩ := isValid_and_query_eq_of_present_eq hfields hvalues
  refine ⟨hfields, hvalues, ?_, ?_⟩
  · rw [← hvalid]
    decide +kernel
  · rw [← hquery]
    decide +kernel

end Condition

end Criteria

end LayerQuery
