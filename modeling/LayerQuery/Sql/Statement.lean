import LayerQuery.Sql.Predicate
import LayerQuery.Text.Blank
/-!
# Statements

A predicate is written as the condition of a statement that selects
nothing else, and is then taken out of the statement again: it is what
follows the first `WHERE` between blanks, without outer blanks. User
text may well hold that word too, but only after the first one.
-/

namespace LayerQuery

namespace Sql

/-- The characters of a statement that selects by a predicate. -/
def statementChars (p : Predicate) : List Char :=
  "SELECT ".toList ++ " WHERE ".toList ++ p.chars

/-- What follows the first place at which a mark stands. -/
def after? (mark : List Char) : List Char → Option (List Char)
  | [] => none
  | c :: cs =>
    if mark.isPrefixOf (c :: cs) then some ((c :: cs).drop mark.length) else after? mark cs

/-- The condition of a statement; a statement without one is taken whole. -/
def conditionChars (statement : List Char) : List Char :=
  match after? " WHERE ".toList statement with
  | some condition => Text.trimChars condition
  | none => statement

/-- The text of a predicate. -/
def Predicate.text (p : Predicate) : String :=
  String.ofList (conditionChars (statementChars p))

end Sql

end LayerQuery
