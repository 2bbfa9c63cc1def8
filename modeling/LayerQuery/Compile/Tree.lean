import LayerQuery.Criteria.Validity
import LayerQuery.Relations.Chain
import LayerQuery.Sql.Compile
/-!
# Trees as queries

A tree is compiled condition by condition, in the order of the document,
and the texts are joined between parentheses. Two collaborators do the
rest: one turns a test into a filter, the other scopes a filter through a
relation chain. They may have effects of any monad, and fail; the first
failure ends the compilation.

The standard collaborators have no effects: they write the predicate of
the test, and wrap it once for every step of the chain.
-/

namespace LayerQuery

open Criteria Relations

/-- What a compilation is handed to, in a monad of effects. -/
structure Collaborators (m : Type → Type) where
  /-- The filter of a test. -/
  filter : Test → ExceptT CompileError m String
  /-- The filter of the chain of fragments that starts with an id. -/
  scope : String → List Fragment → ExceptT CompileError m String

namespace Compile

/-- Texts joined by a connective, between parentheses. -/
def joined (connective : Connective) (texts : List String) : String :=
  "(" ++ (" " ++ connective.word ++ " ").intercalate texts ++ ")"

variable {m : Type → Type} [Monad m]

/-- The query of a condition: its filter, scoped through its chain if it has one. -/
def condition (k : Collaborators m) (c : Condition) : ExceptT CompileError m String := do
  let test ← ExceptT.mk (pure c.test)
  let filter ← k.filter test
  match c.relatedTo with
  | some (t :: ts) => k.scope (Fragment.idOf 0) (Fragment.lay filter (t :: ts) test.featureType)
  | _ => pure filter

/-- The query of a group. -/
def group (k : Collaborators m) (g : Group) : ExceptT CompileError m String := do
  let texts ← g.conditions.mapM (condition k)
  pure (joined g.connective texts)

/-- The query of a tree; without groups there is nothing to ask and the query is empty. -/
def tree (k : Collaborators m) (t : Tree) : ExceptT CompileError m String :=
  match t.groups with
  | none => pure ""
  | some groups => do
    let texts ← groups.mapM (group k)
    pure (joined t.connective texts)

end Compile

/-- The collaborators without effects, for the query backend. -/
def Collaborators.standard : Collaborators Id where
  filter t := ExceptT.mk t.sql
  scope rootId fragments := ExceptT.mk (Chain.combine rootId fragments)

/-- The query of a condition for the backend. -/
def Criteria.Condition.query (c : Condition) : Except CompileError String :=
  Id.run (Compile.condition .standard c).run

/-- The query of a group for the backend. -/
def Criteria.Group.query (g : Group) : Except CompileError String :=
  Id.run (Compile.group .standard g).run

/-- The query of a tree for the backend. -/
def Criteria.Tree.query (t : Tree) : Except CompileError String :=
  Id.run (Compile.tree .standard t).run

end LayerQuery
