import LayerQuery.Proofs.Query
/-!
# Conditions that pass unfinished

The gate lets a condition with a value pass, whatever else of it is unset.
The compiler needs a source, an attribute and an operator, and asks for
them in this order. So there is a hole between the two, and this file
measures it: of the conditions that pass, those are no tests which have a
text for their values and lack one of the three
(`Condition.exists_test_eq_error_iff`). A valid tree then fails over an
unset field exactly when the first of its conditions that fails is one of
these, and without them it can fail over an operator or a value only
(`exists_error_iff_isUnfinished`).
-/

namespace LayerQuery

/-- The fields that a condition needs, in the order in which they are
asked for. -/
def NeededField.inOrder : List NeededField :=
  [.source, .attributeName, .operator]

theorem NeededField.mem_inOrder (field : NeededField) : field ∈ inOrder := by
  cases field <;> decide

namespace Criteria

/-! ## Fields that are unset -/

namespace Condition

variable {c : Condition} {field : NeededField} {e : CompileError}

/-- A needed field of a condition is unset. -/
def isUnset (c : Condition) : NeededField → Bool
  | .source => c.source.isNone
  | .attributeName => c.attributeName.isNone
  | .operator => c.operator.isNone

/-- The first of the needed fields that is unset. -/
def firstUnset? (c : Condition) : Option NeededField :=
  NeededField.inOrder.find? c.isUnset

theorem exists_firstUnset?_iff :
    (∃ field, c.firstUnset? = some field) ↔ ∃ field, c.isUnset field = true := by
  rw [← Option.isSome_iff_exists, firstUnset?, List.find?_isSome]
  constructor
  · rintro ⟨field, -, hfield⟩
    exact ⟨field, hfield⟩
  · rintro ⟨field, hfield⟩
    exact ⟨field, field.mem_inOrder, hfield⟩

/-- **A condition is no test over the first field that is unset.** -/
theorem test_eq_error_iff :
    c.test = .error e ↔ ∃ field, c.firstUnset? = some field ∧ e = .incomplete c.id field := by
  rw [Condition.test, firstUnset?, NeededField.inOrder]
  cases hsource : c.source with
  | none => simp [isUnset, hsource, eq_comm]
  | some source =>
    cases hname : c.attributeName with
    | none => simp [isUnset, hsource, hname, eq_comm]
    | some name =>
      cases hoperator : c.operator with
      | none => simp [isUnset, hsource, hname, hoperator, eq_comm]
      | some operator => simp [isUnset, hsource, hname, hoperator]

theorem query_eq_incomplete_iff {id : String} :
    c.query = .error (.incomplete id field) ↔ id = c.id ∧ c.firstUnset? = some field := by
  constructor
  · intro h
    rcases eq_of_query_eq_error h with htest | ⟨_, he⟩ | ⟨_, _, _, he⟩
    · obtain ⟨_, hfield, he⟩ := test_eq_error_iff.mp htest
      obtain ⟨rfl, rfl⟩ := CompileError.incomplete.inj he
      exact ⟨rfl, hfield⟩
    · cases he
    · cases he
  · rintro ⟨rfl, hfield⟩
    exact query_eq_error_iff.mpr (.inl (test_eq_error_iff.mpr ⟨field, hfield, rfl⟩))

/-! ## The hole in the gate -/

/-- A condition that passes by its values while a needed field is unset. -/
structure IsUnfinished (c : Condition) : Prop where
  value : ∃ text, c.joined = some text ∧ text ≠ ""
  unset : ∃ field, c.isUnset field = true

theorem hasValue_iff : c.hasValue = true ↔ ∃ text, c.joined = some text ∧ text ≠ "" := by
  simp [hasValue, Option.any_eq_true]

/-- The gate's other ground asks for all needed fields. -/
theorem isUnset_of_isNamed (h : c.isNamed = true) (field : NeededField) :
    c.isUnset field = false := by
  simp only [isNamed, Bool.and_eq_true, Option.any_eq_true] at h
  obtain ⟨⟨⟨-, name, hname, -⟩, operator, hoperator, -⟩, hsource⟩ := h
  cases field with
  | source => rw [isUnset, ← Option.not_isSome, hsource, Bool.not_true]
  | attributeName => rw [isUnset, hname, Option.isNone_some]
  | operator => rw [isUnset, hoperator, Option.isNone_some]

/-- **The hole.** -/
theorem isUnfinished_iff_of_isValid (h : c.isValid = true) :
    c.IsUnfinished ↔ ∃ field, c.firstUnset? = some field := by
  rw [exists_firstUnset?_iff]
  constructor
  · exact IsUnfinished.unset
  · rintro ⟨field, hfield⟩
    refine ⟨?_, field, hfield⟩
    rcases Bool.or_eq_true_iff.mp h with hground | hvalue
    · have hset := isUnset_of_isNamed (Bool.and_eq_true_iff.mp hground).1 field
      exact absurd hfield (by rw [hset]; decide)
    · exact hasValue_iff.mp hvalue

theorem exists_test_eq_error_iff (h : c.isValid = true) :
    (∃ e, c.test = .error e) ↔ c.IsUnfinished := by
  rw [isUnfinished_iff_of_isValid h]
  constructor
  · rintro ⟨e, he⟩
    obtain ⟨field, hfield, -⟩ := test_eq_error_iff.mp he
    exact ⟨field, hfield⟩
  · rintro ⟨field, hfield⟩
    exact ⟨_, test_eq_error_iff.mpr ⟨field, hfield, rfl⟩⟩

end Condition

/-! ## Valid trees -/

namespace Tree

variable {t : Tree} {c : Condition} {e : CompileError}

/-- A condition is the first of a tree that does not compile: all that
come before it do. -/
def FailsFirstAt (t : Tree) (c : Condition) : Prop :=
  ∃ front rest, t.conditions = front ++ c :: rest ∧
    (∀ before ∈ front, ∃ q, before.query = .ok q) ∧ ∃ e, c.query = .error e

theorem FailsFirstAt.mem (h : t.FailsFirstAt c) : c ∈ t.conditions := by
  obtain ⟨front, rest, hconditions, -, -⟩ := h
  rw [hconditions]
  exact List.mem_append_right _ List.mem_cons_self

/-- **The first failure is the failure of the tree.** -/
theorem query_eq_error_iff_failsFirstAt :
    t.query = .error e ↔ ∃ c, t.FailsFirstAt c ∧ c.query = .error e := by
  rw [query_eq_error_iff, mapM_eq_error_iff]
  constructor
  · rintro ⟨front, c, rest, hconditions, hfront, hc⟩
    exact ⟨c, ⟨front, rest, hconditions, hfront, e, hc⟩, hc⟩
  · rintro ⟨c, ⟨front, rest, hconditions, hfront, -⟩, hc⟩
    exact ⟨front, c, rest, hconditions, hfront, hc⟩

theorem isValid_of_mem_conditions (h : t.isValid = true) (hc : c ∈ t.conditions) :
    c.isValid = true := by
  obtain ⟨group, hgroup, hc⟩ := List.mem_flatMap.mp hc
  cases hgroups : t.groups with
  | none =>
    rw [hgroups] at hgroup
    exact absurd hgroup List.not_mem_nil
  | some groups =>
    rw [hgroups, Option.getD_some] at hgroup
    rw [isValid, hgroups, Option.all_some, validGroups, List.all_eq_true] at h
    exact List.all_eq_true.mp (Bool.and_eq_true_iff.mp (h group hgroup)).2 c hc

/-- A valid tree fails over an unset field where the first condition that
fails is unfinished, and over the first field that this one lacks. -/
theorem query_eq_incomplete_iff (h : t.isValid = true) {id : String} {field : NeededField} :
    t.query = .error (.incomplete id field) ↔
      ∃ c, t.FailsFirstAt c ∧ c.IsUnfinished ∧ id = c.id ∧ c.firstUnset? = some field := by
  rw [query_eq_error_iff_failsFirstAt]
  constructor
  · rintro ⟨c, hfirst, hc⟩
    obtain ⟨hid, hfield⟩ := Condition.query_eq_incomplete_iff.mp hc
    have hvalid := isValid_of_mem_conditions h hfirst.mem
    exact ⟨c, hfirst, (Condition.isUnfinished_iff_of_isValid hvalid).mpr ⟨field, hfield⟩, hid, hfield⟩
  · rintro ⟨c, hfirst, -, hid, hfield⟩
    exact ⟨c, hfirst, Condition.query_eq_incomplete_iff.mpr ⟨hid, hfield⟩⟩

theorem exists_query_eq_incomplete_iff (h : t.isValid = true) :
    (∃ id field, t.query = .error (.incomplete id field)) ↔
      ∃ c, t.FailsFirstAt c ∧ c.IsUnfinished := by
  constructor
  · rintro ⟨id, field, hquery⟩
    obtain ⟨c, hfirst, hc, -, -⟩ := (query_eq_incomplete_iff h).mp hquery
    exact ⟨c, hfirst, hc⟩
  · rintro ⟨c, hfirst, hc⟩
    have hvalid := isValid_of_mem_conditions h hfirst.mem
    obtain ⟨field, hfield⟩ := (Condition.isUnfinished_iff_of_isValid hvalid).mp hc
    exact ⟨c.id, field, (query_eq_incomplete_iff h).mpr ⟨c, hfirst, hc, rfl, hfield⟩⟩

/-- Without unfinished conditions, what is left to fail over are operators
and values. -/
theorem eq_of_query_eq_error (h : t.isValid = true) (hnone : ∀ c ∈ t.conditions, ¬ c.IsUnfinished)
    (hquery : t.query = .error e) : (∃ token, e = .unsupported token) ∨
      ∃ name token problem, e = .invalidValue name token problem := by
  obtain ⟨c, hfirst, hc⟩ := query_eq_error_iff_failsFirstAt.mp hquery
  rcases Condition.eq_of_query_eq_error hc with htest | he
  · have hvalid := isValid_of_mem_conditions h hfirst.mem
    have hunfinished := (Condition.exists_test_eq_error_iff hvalid).mp ⟨e, htest⟩
    exact absurd hunfinished (hnone c hfirst.mem)
  · exact he

end Tree

/-- **The extent of the hole.** Of the conditions that pass the gate,
exactly those are no tests which have a text for their values and lack a
source, an attribute or an operator; the failure names the first of these
that is unset. A tree that passes fails over such a field exactly when the
first of its conditions that does not compile is one of these conditions,
and then over that field of it. If there are none, then only an operator
or a value is left to fail over. -/
theorem exists_error_iff_isUnfinished :
    (∀ c : Condition, c.isValid = true →
      ((∃ e, c.test = .error e) ↔ c.IsUnfinished) ∧
      ∀ e, c.test = .error e ↔ ∃ field, c.firstUnset? = some field ∧ e = .incomplete c.id field) ∧
    ∀ t : Tree, t.isValid = true →
      ((∃ id field, t.query = .error (.incomplete id field)) ↔
        ∃ c, t.FailsFirstAt c ∧ c.IsUnfinished) ∧
      (∀ id field, t.query = .error (.incomplete id field) ↔
        ∃ c, t.FailsFirstAt c ∧ c.IsUnfinished ∧ id = c.id ∧ c.firstUnset? = some field) ∧
      ((∀ c ∈ t.conditions, ¬ c.IsUnfinished) → ∀ e, t.query = .error e →
        (∃ token, e = .unsupported token) ∨
          ∃ name token problem, e = .invalidValue name token problem) := by
  refine ⟨fun c hc => ⟨Condition.exists_test_eq_error_iff hc, fun e => Condition.test_eq_error_iff⟩,
    fun t ht => ⟨Tree.exists_query_eq_incomplete_iff ht, fun id field => ?_, fun hnone e => ?_⟩⟩
  · exact Tree.query_eq_incomplete_iff ht
  · exact Tree.eq_of_query_eq_error ht hnone

/-- A condition that compiles. -/
def finished : Condition where
  id := "criteria-1"
  source := some 4
  attributeName := some "status"
  attributeType := some .string
  operator := some "="
  values := some [some (.text "Open")]

/-- A condition that passes the gate with nothing but a source and a value. -/
def unfinished : Condition where
  id := "criteria-2"
  source := some 4
  values := some [none, some (.boolean false)]

/-- A valid tree of the two. -/
def halfFinished : Tree :=
  ⟨.multiple, .or, some [⟨"a", .and, [finished]⟩, ⟨"b", .and, [unfinished, finished]⟩]⟩

theorem halfFinished_query_eq :
    finished.isValid = true ∧ unfinished.isValid = true ∧ halfFinished.isValid = true ∧
      unfinished.IsUnfinished ∧ ¬ finished.IsUnfinished ∧
      unfinished.test = .error (.incomplete "criteria-2" .attributeName) ∧
      halfFinished.query = .error (.incomplete "criteria-2" .attributeName) := by
  obtain ⟨hconditions, htrees⟩ := exists_error_iff_isUnfinished
  have hfinished : finished.isValid = true := by decide +kernel
  have hunfinished : unfinished.isValid = true := by decide +kernel
  have hvalid : halfFinished.isValid = true := by decide +kernel
  have htest : unfinished.test = .error (.incomplete "criteria-2" .attributeName) :=
    ((hconditions unfinished hunfinished).2 _).mpr ⟨.attributeName, rfl, rfl⟩
  have hhole : unfinished.IsUnfinished := (hconditions unfinished hunfinished).1.mp ⟨_, htest⟩
  have hnone : ¬ finished.IsUnfinished := by
    intro h
    obtain ⟨e, he⟩ := (hconditions finished hfinished).1.mpr h
    cases he
  have hquery : finished.query = .ok "\"status\" = 'Open'" := by decide +kernel
  have hfirst : halfFinished.FailsFirstAt unfinished := by
    refine ⟨[finished], [finished], rfl, ?_, _, Condition.query_eq_error_iff.mpr (.inl htest)⟩
    exact fun before hbefore => ⟨_, (List.mem_singleton.mp hbefore).symm ▸ hquery⟩
  refine ⟨hfinished, hunfinished, hvalid, hhole, hnone, htest, ?_⟩
  exact ((htrees halfFinished hvalid).2.1 _ _).mpr ⟨unfinished, hfirst, hhole, rfl, rfl⟩

end Criteria

end LayerQuery
