import LayerQuery.Proofs.Gate
import LayerQuery.Proofs.Leaf
/-!
# What a query asks of its column

The query of a test is a question about one column, and there are four
kinds of them: how the column compares with an operand, whether it is
among some operands, whether it matches a pattern, and whether it is
there at all. `Question.IsIn` reads the question off the text of a query.
No text holds two questions (`Question.IsIn.unique`), so whatever is
proved of a question in a query is proved of the query.

The operands are kept as the tokens they are written as. They come from
the values one by one, but where nothing is looked up in them: then the
operand is a truth value or there is none
(`Criteria.Test.operands_question_of_predicateOf`).
-/

namespace LayerQuery

namespace Sql

/-- A question about a column, with its operands as they are written. -/
inductive Question where
  | compare (comparison : Comparison) (operand : Token)
  | member (negated : Bool) (operands : List Token)
  | like (negated : Bool) (pattern escape : Token)
  | isNull (negated : Bool)
  deriving DecidableEq, Repr

namespace Question

/-- The sign that asks how the column compares. -/
def sign : Comparison → Token
  | .equal => .word ['=']
  | .unequal => .word ['<', '>']
  | .greater => .word ['>']
  | .less => .word ['<']
  | .atLeast => .word ['>', '=']
  | .atMost => .word ['<', '=']

/-- How a question is written, without the spaces between its words. -/
def tokens : Question → List Token
  | .compare comparison operand => [sign comparison, operand]
  | .member negated operands =>
    words (if negated then ["NOT", "IN"] else ["IN"]) ++
      .opening :: (operands.intersperse .comma ++ [.closing])
  | .like negated pattern escape =>
    words (if negated then ["NOT", "LIKE"] else ["LIKE"]) ++
      [pattern, .word "ESCAPE".toList, escape]
  | .isNull negated => words (if negated then ["IS", "NOT", "NULL"] else ["IS", "NULL"])

/-- What the column is compared with; a pattern is no operand. -/
def operands : Question → List Token
  | .compare _ operand => [operand]
  | .member _ operands => operands
  | .like .. | .isNull _ => []

/-- The text of a query asks this question of a column, and says nothing else. -/
def IsIn (question : Question) (column q : String) : Prop :=
  ∃ ts name, scan q.toList = some ts ∧ solid ts = .identifier name :: question.tokens ∧
    Token.decode '"' false name = column.toList

/-! ## A query asks one question -/

theorem intersperse_injective {α : Type} {mark : α} {xs ys : List α}
    (h : xs.intersperse mark = ys.intersperse mark) : xs = ys := by
  induction xs generalizing ys with
  | nil =>
    match ys with
    | [] => rfl
    | [_] | _ :: _ :: _ => simp at h
  | cons x xs ih =>
    match xs, ys with
    | [], [] | _ :: _, [] | [], _ :: _ :: _ | _ :: _, [_] => simp at h
    | [], [y] => exact h
    | x' :: xs, y :: y' :: ys =>
      obtain ⟨rfl, hrest⟩ := List.cons.inj h
      rw [ih (List.cons.inj hrest).2]

theorem sign_injective : ∀ {c c' : Comparison}, sign c = sign c' → c = c' := by
  intro c c'
  cases c <;> cases c' <;> decide

/-- Questions of two kinds differ in their first words. -/
theorem tokens_injective {a b : Question} (h : a.tokens = b.tokens) : a = b := by
  cases a with
  | compare c operand =>
    cases b with
    | compare c' operand' =>
      simp only [tokens, List.cons.injEq, and_true] at h
      rw [sign_injective h.1, h.2]
    | member n _ | like n _ _ | isNull n =>
      cases c <;> cases n <;> simp [tokens, words, sign] at h
  | member n operands =>
    cases b with
    | member n' operands' =>
      obtain rfl : n = n' := by cases n <;> cases n' <;> simp [tokens, words] at h ⊢
      simp only [tokens, List.append_cancel_left_eq, List.cons.injEq, true_and,
        List.append_cancel_right_eq] at h
      rw [intersperse_injective h]
    | compare c _ => cases c <;> cases n <;> simp [tokens, words, sign] at h
    | like n' _ _ | isNull n' => cases n <;> cases n' <;> simp [tokens, words] at h
  | like n pattern escape =>
    cases b with
    | like n' pattern' escape' =>
      obtain rfl : n = n' := by cases n <;> cases n' <;> simp [tokens, words] at h ⊢
      simp only [tokens, List.append_cancel_left_eq, List.cons.injEq, true_and, and_true] at h
      rw [h.1, h.2]
    | compare c _ => cases c <;> cases n <;> simp [tokens, words, sign] at h
    | member n' _ | isNull n' => cases n <;> cases n' <;> simp [tokens, words] at h
  | isNull n =>
    cases b with
    | isNull n' => cases n <;> cases n' <;> simp [tokens, words] at h ⊢
    | compare c _ => cases c <;> cases n <;> simp [tokens, words, sign] at h
    | member n' _ | like n' _ _ => cases n <;> cases n' <;> simp [tokens, words] at h

/-- **A query asks one question.** -/
theorem IsIn.unique {a b : Question} {column q : String} (ha : a.IsIn column q)
    (hb : b.IsIn column q) : a = b := by
  obtain ⟨ts, name, hts, hsolid, -⟩ := ha
  obtain ⟨ts', name', hts', hsolid', -⟩ := hb
  obtain rfl := Option.some.inj (hts.symm.trans hts')
  exact tokens_injective (List.cons.inj (hsolid.symm.trans hsolid')).2

end Question

/-! ## The question of a predicate -/

namespace Predicate

/-- The question that a predicate asks of its column. -/
def question : Predicate → Question
  | .compare _ comparison operand => .compare comparison operand.token
  | .member _ negated operands => .member negated (operands.map Operand.token)
  | .like _ negated pattern =>
    .like negated (literalToken pattern.chars) (.literal true ['\\', '\\'])
  | .isNull _ negated => .isNull negated

theorem tokens_question (p : Predicate) : p.question.tokens = solid p.testTokens := by
  cases p with
  | compare _ comparison =>
    rw [solid_compare]
    cases comparison <;> rfl
  | member => exact (solid_member ..).symm
  | like => exact (solid_like ..).symm
  | isNull => exact (solid_isNull ..).symm

/-- **The text of a predicate asks its question.** -/
theorem isIn_text (p : Predicate) : p.question.IsIn p.column p.text :=
  ⟨p.tokens, _, p.scan_text, by rw [solid_tokens, tokens_question]; rfl, decode_identifier _⟩

end Predicate

end Sql

open Sql

namespace Criteria.Test

variable {t : Test} {o : Operator} {p : Predicate}

theorem column_of_predicateOf (h : t.predicateOf o = .ok p) : p.column = t.attributeName :=
  (asks_of_predicateOf h).1

/-- **Where the operands come from.** If the operator asks for operands, they are those of the
values, in their order. Otherwise, and where a truth value is tested by itself, nothing is looked
up in the values. -/
theorem operands_question_of_predicateOf (h : t.predicateOf o = .ok p) :
    (∃ os, o.demand = .operands ∧ t.operands = .ok os ∧
      p.question.operands = os.map Operand.token) ∨
    ((t.isBare = true ∨ o.demand ≠ .operands) ∧
      ∀ tok ∈ p.question.operands, ∃ b, tok = (Operand.boolean b).token) := by
  cases o with
  | isNull | isNotNull =>
    obtain rfl := Except.ok.inj h
    exact .inr ⟨.inr (by decide), by simp [Predicate.question, Question.operands]⟩
  | isTrue | isFalse =>
    obtain rfl := Except.ok.inj h
    exact .inr ⟨.inr (by decide), by simp [Predicate.question, Question.operands]⟩
  | equal | unequal =>
    simp only [predicateOf] at h
    split at h
    · next hbare =>
      obtain rfl := Except.ok.inj h
      exact .inr ⟨.inl hbare, by simp [Predicate.question, Question.operands]⟩
    · rcases equality_eq_ok h with ⟨operand, hos, rfl⟩ | ⟨os, hos, -, rfl⟩
      · exact .inl ⟨_, rfl, hos, rfl⟩
      · exact .inl ⟨_, rfl, hos, rfl⟩
  | greater | less | atLeast | atMost =>
    obtain ⟨operand, hoperand, rfl⟩ := eq_ok_of_map_eq_ok h
    exact .inl ⟨_, rfl, singleOperand_eq_ok hoperand, rfl⟩
  | contains | notContains | startsWith | endsWith =>
    obtain ⟨s, -, rfl⟩ := eq_ok_of_map_eq_ok h
    exact .inr ⟨.inr (by decide), by simp [Predicate.question, Question.operands]⟩
  | oneOf | noneOf =>
    obtain ⟨os, hos, rfl⟩ := eq_ok_of_map_eq_ok h
    exact .inl ⟨os, rfl, hos, rfl⟩

end Criteria.Test

end LayerQuery
