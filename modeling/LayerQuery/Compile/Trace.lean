import LayerQuery.Compile.Tree
/-!
# Traces of a compilation

Collaborators can be watched: `Collaborators.recorded` notes every call
before it is passed on, so that a compilation yields the list of calls
that were made along with its result, whether that is a query or a
failure.
-/

namespace LayerQuery

open Criteria Relations

/-- A call of a collaborator. -/
inductive Call where
  | filter (test : Test)
  | scope (rootId : String) (fragments : List Fragment)
  deriving DecidableEq, Repr

/-- Collaborators that note each call before they pass it on. -/
def Collaborators.recorded (k : Collaborators Id) : Collaborators (StateM (List Call)) where
  filter t := ExceptT.mk fun calls => pure ((k.filter t).run, calls ++ [.filter t])
  scope rootId fragments := ExceptT.mk fun calls =>
    pure ((k.scope rootId fragments).run, calls ++ [.scope rootId fragments])

/-- The result of a compilation with recorded calls, and the calls in their order. -/
def Compile.traced (run : ExceptT CompileError (StateM (List Call)) String) :
    Except CompileError String × List Call :=
  Id.run (run.run.run [])

end LayerQuery
