import LayerQuery.Compile.Tree
import LayerQuery.Draft.Ids
/-!
# Drafts

A draft is what a user works on: conditions that are filled in field by
field, groups that were made of some of them, and the tree that was made
of some of the groups. Groups take their conditions, and the tree its
groups, as they are at the time; later changes do not reach them.
-/

namespace LayerQuery

open Criteria

/-- Conditions, groups and a tree in the making. -/
structure Draft where
  ids : Draft.IdSource
  conditions : List Condition
  groups : List Group
  tree : Option Tree

namespace Draft

/-- Nothing made yet. -/
def empty : Draft := ⟨.start, [], [], none⟩

/-- The fields of a condition that a user fills in. -/
inductive ConditionField where
  | source
  | attributeName
  | attributeType
  | operator
  | values
  | relatedTo
  deriving DecidableEq, Repr

/-- A condition with one field taken over from another. -/
def ConditionField.copy (field : ConditionField) (donor c : Condition) : Condition :=
  match field with
  | .source => { c with source := donor.source }
  | .attributeName => { c with attributeName := donor.attributeName }
  | .attributeType => { c with attributeType := donor.attributeType }
  | .operator => { c with operator := donor.operator }
  | .values => { c with values := donor.values }
  | .relatedTo => { c with relatedTo := donor.relatedTo }

/-- A new id with a stem. -/
def newId (d : Draft) (stem : String) : String × Draft :=
  let (id, ids) := d.ids.issue stem
  (id, { d with ids := ids })

/-- A new condition, in which nothing but the id is set, and the draft with it at the end. -/
def addCondition (d : Draft) : Condition × Draft :=
  let (id, d) := d.newId IdSource.conditionStem
  let c : Condition := { id := id }
  (c, { d with conditions := d.conditions ++ [c] })

/-- One condition changed in one field, if there is one at that place. -/
def setField (d : Draft) (index : Nat) (field : ConditionField) (donor : Condition) :
    Option (Condition × Draft) :=
  (d.conditions[index]?).map fun c =>
    let c := field.copy donor c
    (c, { d with conditions := d.conditions.set index c })

/-- A new group of the conditions at some places, and the draft with it at the end. -/
def addGroup (d : Draft) (indices : List Nat) (connective : Connective) : Group × Draft :=
  let (id, d) := d.newId IdSource.groupStem
  let g : Group := ⟨id, connective, indices.filterMap (d.conditions[·]?)⟩
  (g, { d with groups := d.groups ++ [g] })

/-- A tree of the groups at some places, which becomes the tree of the draft. -/
def setTree (d : Draft) (kind : Kind) (indices : List Nat) (connective : Connective) :
    Tree × Draft :=
  let t : Tree := ⟨kind, connective, some (indices.filterMap (d.groups[·]?))⟩
  (t, { d with tree := some t })

/-- Whether the tree is valid, if there is one. -/
def isValid? (d : Draft) : Option Bool :=
  d.tree.map Tree.isValid

/-- The query of the tree; without one there is nothing to ask. -/
def query (d : Draft) : Except CompileError String :=
  match d.tree with
  | some t => t.query
  | none => .ok ""

end Draft

end LayerQuery
