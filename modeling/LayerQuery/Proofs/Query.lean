import LayerQuery.Compile.Tree
import LayerQuery.Proofs.Chain
import LayerQuery.Proofs.Outcome
/-!
# Queries for the backend

The compiler is written over collaborators with effects of any monad.
With the standard ones nothing of that is left: this file states what
the query of a condition, a group and a tree is as a plain result that
may fail (`Condition.query_eq`, `Group.query_eq`, `Tree.query_of_some`),
over which of its conditions a tree fails (`Tree.query_eq_error_iff`), and
from which side failures come.
-/

namespace LayerQuery

open Criteria Relations

/-! ## Without effects -/

section Effects

variable {α β ε : Type}

/-- Without effects, one operation after another is one result after
another. -/
theorem run_bind (x : ExceptT ε Id α) (f : α → ExceptT ε Id β) :
    Id.run (x >>= f).run = (Id.run x.run).bind fun a => Id.run (f a).run := by
  change Id.run (ExceptT.bindCont f (Id.run x.run)) = _
  cases Id.run x.run with
  | error e => rfl
  | ok a => rfl

/-- And so over a list. -/
theorem run_mapM (f : α → ExceptT ε Id β) (xs : List α) :
    Id.run (xs.mapM f).run = xs.mapM fun x => Id.run (f x).run := by
  induction xs with
  | nil => rfl
  | cons x xs ih =>
    rw [List.mapM_cons, List.mapM_cons, run_bind]
    cases Id.run (f x).run with
    | error e => rfl
    | ok y =>
      rw [← ih]
      exact run_bind (xs.mapM f) fun ys => pure (y :: ys)

end Effects

/-! ## Conditions, groups and trees -/

theorem run_filter_standard (t : Test) : Id.run (Collaborators.standard.filter t).run = t.sql := by
  simp only [Collaborators.standard, ExceptT.run, ExceptT.mk, Id.run]

/-- The predicate of a test names neither its id nor its feature type. -/
theorem Criteria.Test.sql_eq_sql (id id' : String) (featureType featureType' : FeatureTypeId)
    (name operator : String) (values : List (Option Value)) (type : Option AttributeType) :
    Test.sql ⟨id, featureType, name, operator, values, type⟩ =
      Test.sql ⟨id', featureType', name, operator, values, type⟩ := by
  have hof : Test.predicateOf ⟨id, featureType, name, operator, values, type⟩ =
      Test.predicateOf ⟨id', featureType', name, operator, values, type⟩ := by
    funext o
    cases o <;> rfl
  simp only [Test.sql, Test.predicate, hof]

theorem run_scope_standard (rootId : String) (fragments : List Fragment) :
    Id.run (Collaborators.standard.scope rootId fragments).run =
      Chain.combine rootId fragments := by
  simp only [Collaborators.standard, ExceptT.run, ExceptT.mk, Id.run]

/-- **The query of a condition**: the predicate of its test, inside one
call for each hop from the outermost related type to the source. -/
theorem Criteria.Condition.query_eq (c : Condition) :
    c.query = c.test.bind fun t => t.sql.map (nested (c.relatedTo.getD [] ++ [t.featureType])) := by
  rw [Condition.query, Compile.condition, run_bind]
  refine congrArg (Except.bind c.test) (funext fun t => ?_)
  rw [run_bind, run_filter_standard]
  generalize t.sql = written
  cases written with
  | error e => simp only [Except.bind, Except.map]
  | ok filter =>
    simp only [Except.bind, Except.map]
    rcases c.relatedTo with - | ⟨- | ⟨u, types⟩⟩
    · rfl
    · rfl
    · exact (run_scope_standard _ _).trans (Chain.combine_lay filter (u :: types) t.featureType)

/-- The query of a group joins those of its conditions. -/
theorem Criteria.Group.query_eq (g : Group) :
    g.query = (g.conditions.mapM Condition.query).map (Compile.joined g.connective) := by
  rw [Group.query, Compile.group, run_bind, run_mapM]
  change (g.conditions.mapM Condition.query).bind _ = _
  cases g.conditions.mapM Condition.query with
  | error e => rfl
  | ok texts => rfl

/-- The query of a tree joins those of its groups, and is empty where
these are unset. -/
theorem Criteria.Tree.query_of_none {t : Tree} (h : t.groups = none) : t.query = .ok "" := by
  rw [Tree.query, Compile.tree, h]
  rfl

theorem Criteria.Tree.query_of_some {t : Tree} {groups : List Group} (h : t.groups = some groups) :
    t.query = (groups.mapM Group.query).map (Compile.joined t.connective) := by
  rw [Tree.query, Compile.tree, h]
  change Id.run (groups.mapM (Compile.group .standard) >>= _).run = _
  rw [run_bind, run_mapM]
  change (groups.mapM Group.query).bind _ = _
  cases groups.mapM Group.query with
  | error e => rfl
  | ok texts => rfl

/-! ## The first failure

The conditions of a tree are compiled one after the other, whatever group
they are in. The first of them that fails is the failure of the tree.
-/

namespace Criteria

/-- A condition fails where it is no test, or as its test does. -/
theorem Condition.query_eq_error_iff {c : Condition} {e : CompileError} :
    c.query = .error e ↔ c.test = .error e ∨ ∃ t, c.test = .ok t ∧ t.sql = .error e := by
  rw [Condition.query_eq]
  cases c.test with
  | error e' => simp only [Except.bind, Except.error.injEq, reduceCtorEq, false_and,
      exists_false, or_false]
  | ok t => simp only [Except.bind, map_eq_error_iff, reduceCtorEq, Except.ok.injEq,
      exists_eq_left', false_or]

/-- Groups fail as their conditions do, taken one after the other. -/
theorem mapM_groups_eq_error_iff {gs : List Group} {e : CompileError} :
    gs.mapM Group.query = .error e ↔
      (gs.flatMap Group.conditions).mapM Condition.query = .error e := by
  induction gs with
  | nil => simp [pure, Except.pure]
  | cons g gs ih =>
    rw [List.flatMap_cons, List.mapM_append, List.mapM_cons, Group.query_eq]
    cases g.conditions.mapM Condition.query with
    | error e' => rfl
    | ok texts => exact bind_ok_eq_error_iff.trans (ih.trans bind_ok_eq_error_iff.symm)

/-- The conditions of a tree, in the order of the document. -/
def Tree.conditions (t : Tree) : List Condition :=
  (t.groups.getD []).flatMap Group.conditions

theorem Tree.query_eq_error_iff {t : Tree} {e : CompileError} :
    t.query = .error e ↔ t.conditions.mapM Condition.query = .error e := by
  rw [Tree.conditions, ← mapM_groups_eq_error_iff]
  cases hgroups : t.groups with
  | none => simp [Tree.query_of_none hgroups, pure, Except.pure]
  | some groups => rw [Tree.query_of_some hgroups, map_eq_error_iff, Option.getD_some]

end Criteria

/-! ## Where failures come from

A test fails over its operator or its values, a condition also over a
field that is unset. A chain of fragments is only ever laid before it is
put together again, so it holds. -/

namespace Criteria

/-- A result fails, if at all, over the values of a test. -/
def Test.FailsOverValues {α : Type} (t : Test) (result : Except CompileError α) : Prop :=
  ∀ e, result = .error e → ∃ problem, e = t.invalid problem

namespace Test

variable {t : Test}

theorem failsOverValues_predicateOf (operator : Sql.Operator) :
    t.FailsOverValues (t.predicateOf operator) := by
  intro e h
  obtain ⟨problem, he, -⟩ := (predicateOf_eq_error_iff operator).mp h
  exact ⟨problem, he⟩

/-- **A test fails over its operator or over its values.** -/
theorem eq_of_sql_eq_error {e : CompileError} (h : t.sql = .error e) :
    e = .unsupported t.operator ∨ ∃ problem, e = t.invalid problem := by
  unfold sql predicate at h
  cases hop : Sql.Operator.ofToken? t.operator with
  | none =>
    simp only [hop, Except.map, Except.error.injEq] at h
    exact .inl h.symm
  | some operator =>
    simp only [hop] at h
    exact .inr (failsOverValues_predicateOf operator e (map_eq_error_iff.mp h))

end Test

/-- A condition that is no test lacks a field. -/
theorem Condition.eq_of_test_eq_error {c : Condition} {e : CompileError}
    (h : c.test = .error e) : ∃ field, e = .incomplete c.id field := by
  unfold Condition.test at h
  split at h
  · exact ⟨_, (Except.error.inj h).symm⟩
  · exact ⟨_, (Except.error.inj h).symm⟩
  · exact ⟨_, (Except.error.inj h).symm⟩
  · cases h

/-- A test has what its condition names, and its id is made of it. -/
theorem Condition.eq_of_test_eq_ok {c : Condition} {t : Test} (h : c.test = .ok t) :
    c.source = some t.featureType ∧ c.attributeName = some t.attributeName ∧
      c.operator = some t.operator ∧
      t.id = Test.idOf t.featureType t.attributeName t.operator := by
  unfold Condition.test at h
  split at h
  · cases h
  · cases h
  · cases h
  · next hsource hname hoperator =>
    obtain rfl := Except.ok.inj h
    exact ⟨hsource, hname, hoperator, rfl⟩

/-- A test is of the source that its condition names. -/
theorem Condition.source_eq_of_test_eq_ok {c : Condition} {t : Test} (h : c.test = .ok t) :
    c.source = some t.featureType :=
  (eq_of_test_eq_ok h).1

/-- A condition is not filled in, or its operator is unknown, or its
values do not suit. -/
theorem Condition.eq_of_query_eq_error {c : Condition} {e : CompileError}
    (h : c.query = .error e) :
    c.test = .error e ∨ (∃ token, e = .unsupported token) ∨
      ∃ name token problem, e = .invalidValue name token problem := by
  rcases Condition.query_eq_error_iff.mp h with h | ⟨t, -, h⟩
  · exact .inl h
  · rcases Test.eq_of_sql_eq_error h with he | ⟨problem, he⟩
    · exact .inr (.inl ⟨_, he⟩)
    · exact .inr (.inr ⟨_, _, problem, he⟩)

/-- **No query of a condition fails over its chain.** -/
theorem Condition.query_ne_brokenChain (c : Condition) (id : String) (problem : ChainProblem) :
    c.query ≠ .error (.brokenChain id problem) := by
  intro h
  rcases Condition.eq_of_query_eq_error h with htest | ⟨_, he⟩ | ⟨_, _, _, he⟩
  · obtain ⟨field, he⟩ := Condition.eq_of_test_eq_error htest
    cases he
  · cases he
  · cases he

theorem Tree.query_ne_brokenChain (t : Tree) (id : String) (problem : ChainProblem) :
    t.query ≠ .error (.brokenChain id problem) := by
  intro h
  obtain ⟨c, -, hc⟩ := exists_of_mapM_eq_error (Tree.query_eq_error_iff.mp h)
  exact c.query_ne_brokenChain id problem hc

end Criteria

/-- **Relation chains nest and never break.** What is laid for a filter,
a chain of related types and a source is put together again as one call
for each hop, the outermost first, whatever types repeat on the way; and
so no tree fails to compile over a chain. -/
theorem combine_lay_and_query_ne_brokenChain :
    (∀ (filter : String) (relatedTo : List FeatureTypeId) (source : FeatureTypeId),
      Chain.combine "condition-0" (Fragment.lay filter relatedTo source) =
        .ok (nested (relatedTo ++ [source]) filter)) ∧
    ∀ (t : Tree) (id : String) (problem : ChainProblem),
      t.query ≠ .error (.brokenChain id problem) :=
  ⟨Chain.combine_lay, Tree.query_ne_brokenChain⟩

end LayerQuery
