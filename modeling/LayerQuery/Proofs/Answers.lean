import LayerQuery.Proofs.Formula
import LayerQuery.Proofs.Matching
import LayerQuery.Proofs.Question
import Mathlib.Order.Lattice
/-!
# What a question comes to

A question about a column is answered for each value of the column, in
three-valued logic: a value that is absent compares with nothing, and
neither does an operand that stands for none. What the values are is left
open. They are in some total order, operands stand for some of them, and
each has a text that a pattern may match (`Column`).

A question and its denial are written by words of their own, with
`NOT IN` made of comparisons as `IN` is. They come to opposite truth
values all the same, for every value of every column
(`Question.truth?_negated`).
-/

namespace LayerQuery

namespace Sql

/-! ## Three truth values -/

namespace Truth

/-- What does not hold fails, and what is unknown stays so. -/
def not : Truth → Truth
  | .holds => .fails
  | .fails => .holds
  | .unknown => .unknown

/-- A statement that is true or false. -/
def of (p : Prop) [Decidable p] : Truth :=
  if p then .holds else .fails

theorem not_not (a : Truth) : a.not.not = a := by
  cases a <;> rfl

theorem not_or (a b : Truth) : (a.or b).not = a.not.and b.not := by
  cases a <;> cases b <;> rfl

theorem or_fails (a : Truth) : a.or .fails = a := by
  cases a <;> rfl

theorem and_holds (a : Truth) : a.and .holds = a := by
  cases a <;> rfl

theorem of_eq_not_of {p q : Prop} [Decidable p] [Decidable q] (h : p ↔ ¬ q) :
    of p = (of q).not := by
  unfold of
  by_cases hq : q
  · rw [if_pos hq, if_neg fun hp => h.mp hp hq]
    rfl
  · rw [if_neg hq, if_pos (h.mpr hq)]
    rfl

end Truth

/-! ## Comparisons -/

namespace Comparison

variable {α : Type} [LinearOrder α]

/-- How two values compare. -/
def Holds : Comparison → α → α → Prop
  | .equal, a, b => a = b
  | .unequal, a, b => a ≠ b
  | .greater, a, b => b < a
  | .less, a, b => a < b
  | .atLeast, a, b => b ≤ a
  | .atMost, a, b => a ≤ b

instance decidableHolds : (c : Comparison) → (a b : α) → Decidable (c.Holds a b)
  | .equal, a, b => inferInstanceAs (Decidable (a = b))
  | .unequal, a, b => inferInstanceAs (Decidable (a ≠ b))
  | .greater, a, b => inferInstanceAs (Decidable (b < a))
  | .less, a, b => inferInstanceAs (Decidable (a < b))
  | .atLeast, a, b => inferInstanceAs (Decidable (b ≤ a))
  | .atMost, a, b => inferInstanceAs (Decidable (a ≤ b))

/-- The comparison that holds where another one does not. -/
def negated : Comparison → Comparison
  | .equal => .unequal
  | .unequal => .equal
  | .greater => .atMost
  | .less => .atLeast
  | .atLeast => .less
  | .atMost => .greater

theorem holds_negated_iff (c : Comparison) (a b : α) : c.negated.Holds a b ↔ ¬ c.Holds a b := by
  cases c with
  | equal => exact Iff.rfl
  | unequal => exact not_not.symm
  | greater | less => exact not_lt.symm
  | atLeast | atMost => exact not_le.symm

/-- What a comparison comes to. Nothing is known of what is absent. -/
def truth (c : Comparison) : Option α → Option α → Truth
  | some a, some b => .of (c.Holds a b)
  | _, _ => .unknown

theorem truth_negated (c : Comparison) (x y : Option α) :
    c.negated.truth x y = (c.truth x y).not := by
  cases x with
  | none => rfl
  | some a =>
    cases y with
    | none => rfl
    | some b => exact Truth.of_eq_not_of (c.holds_negated_iff a b)

end Comparison

/-! ## Columns -/

/-- A column as its queries see it: the values that operands stand for, which may be absent, and
the texts of values. -/
structure Column (α : Type) where
  value : Token → Option α
  text : α → List Char

/-- The column holds truth values: one is true, another is false, and there are no more. -/
def Column.IsBoolean {α : Type} (K : Column α) : Prop :=
  ∃ yes no, K.value (.word "TRUE".toList) = some yes ∧ K.value (.word "FALSE".toList) = some no ∧
    yes ≠ no ∧ ∀ a, a = yes ∨ a = no

/-- The parts of a pattern that is written with a character that escapes, if it is well formed. -/
def patternParts? (pattern escape : Token) : Option (List PatternPart) :=
  match escape.content with
  | [c] => parts? c pattern.content
  | _ => none

namespace Question

variable {α : Type} [LinearOrder α]

/-- What a question comes to for a value of the column, which may be absent. Membership is equality
with one of the operands, and its denial is inequality with each of them. Only a pattern that is
not well formed has no answer. -/
def truth? (K : Column α) (x : Option α) : Question → Option Truth
  | .compare c operand => some (c.truth x (K.value operand))
  | .member false operands =>
    some (operands.foldr (fun o b => (Comparison.equal.truth x (K.value o)).or b) .fails)
  | .member true operands =>
    some (operands.foldr (fun o b => (Comparison.unequal.truth x (K.value o)).and b) .holds)
  | .like negated pattern escape =>
    (patternParts? pattern escape).map fun parts =>
      match x with
      | some a => if negated then .of (¬ Fits parts (K.text a)) else .of (Fits parts (K.text a))
      | none => .unknown
  | .isNull negated => some (if negated then .of (x.isSome = true) else .of (x.isNone = true))

/-- The denial of a question. -/
def negated : Question → Question
  | .compare c operand => .compare c.negated operand
  | .member negated operands => .member (!negated) operands
  | .like negated pattern escape => .like (!negated) pattern escape
  | .isNull negated => .isNull (!negated)

/-- Inequality with each of the operands is the denial of equality with one of them. -/
theorem foldr_unequal (K : Column α) (x : Option α) (operands : List Token) :
    operands.foldr (fun o b => (Comparison.unequal.truth x (K.value o)).and b) .holds =
      (operands.foldr (fun o b => (Comparison.equal.truth x (K.value o)).or b) .fails).not := by
  induction operands with
  | nil => rfl
  | cons o operands ih =>
    have hunequal : Comparison.unequal.truth x (K.value o) =
        (Comparison.equal.truth x (K.value o)).not := Comparison.truth_negated .equal x _
    rw [List.foldr_cons, List.foldr_cons, Truth.not_or, ih, hunequal]

/-- **A denial comes to the opposite**, for every value of the column. -/
theorem truth?_negated (K : Column α) (x : Option α) (question : Question) :
    question.negated.truth? K x = (question.truth? K x).map Truth.not := by
  cases question with
  | compare c operand => exact congrArg some (c.truth_negated x _)
  | member negated operands =>
    cases negated with
    | false => exact congrArg some (foldr_unequal K x operands)
    | true =>
      have hequal := congrArg Truth.not (foldr_unequal K x operands)
      rw [Truth.not_not] at hequal
      exact congrArg some hequal.symm
  | like negated pattern escape =>
    simp only [Question.negated, truth?, Option.map_map]
    congr 1
    funext parts
    cases x with
    | none => rfl
    | some a =>
      cases negated with
      | false => exact Truth.of_eq_not_of Iff.rfl
      | true => exact Truth.of_eq_not_of Classical.not_not.symm
  | isNull negated =>
    cases x <;> cases negated <;> rfl

/-- Equality with one operand is membership in a list of it alone. -/
theorem truth?_compare_equal (K : Column α) (x : Option α) (operand : Token) :
    (compare .equal operand).truth? K x = (member false [operand]).truth? K x :=
  congrArg some (Truth.or_fails _).symm

theorem truth?_compare_unequal (K : Column α) (x : Option α) (operand : Token) :
    (compare .unequal operand).truth? K x = (member true [operand]).truth? K x :=
  congrArg some (Truth.and_holds _).symm

end Question

/-! ## The questions of predicates -/

namespace Predicate

/-- The denial of a predicate. -/
def negated : Predicate → Predicate
  | .compare column c o => .compare column c.negated o
  | .member column negated os => .member column (!negated) os
  | .like column negated pattern => .like column (!negated) pattern
  | .isNull column negated => .isNull column (!negated)

theorem question_negated (p : Predicate) : p.negated.question = p.question.negated := by
  cases p <;> rfl

theorem column_negated (p : Predicate) : p.negated.column = p.column := by
  cases p <;> rfl

/-- **The question of a predicate has an answer**, since its pattern is well formed. -/
theorem exists_truth? {α : Type} [LinearOrder α] (p : Predicate) (K : Column α) (x : Option α) :
    ∃ b, p.question.truth? K x = some b := by
  cases p with
  | compare column c o => exact ⟨_, rfl⟩
  | member column negated os => cases negated <;> exact ⟨_, rfl⟩
  | like column negated pattern =>
    have hparts : patternParts? (literalToken pattern.chars) (.literal true ['\\', '\\']) =
        some pattern.parts := by
      have hpattern := pattern.parts?_chars
      rw [← content_literalToken pattern.chars] at hpattern
      exact hpattern
    exact ⟨_, by rw [question, Question.truth?, hparts]; rfl⟩
  | isNull column negated => exact ⟨_, rfl⟩

end Predicate

end Sql

end LayerQuery
