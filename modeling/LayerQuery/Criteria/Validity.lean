import LayerQuery.Criteria.Basic
/-!
# Validity

A tree is offered for compilation once all its groups are valid. A
condition passes on either of two grounds: its values are not empty, or
it needs none and names its source, attribute, type and operator. The
first ground asks for nothing else, so that a condition with a value may
pass though fields of it are unset.
-/

namespace LayerQuery

namespace Criteria

namespace Condition

/-- Source, attribute, type and operator are set, and the texts among them are not empty. -/
def isNamed (c : Condition) : Bool :=
  c.attributeType.isSome && c.attributeName.any (· ≠ "") && c.operator.any (· ≠ "") && c.source.isSome

/-- The test needs no value: the attribute is a truth value, or the operator asks for null. -/
def needsNoValue (c : Condition) : Bool :=
  c.attributeType == some .boolean || c.operator == some AttributeType.null.name

/-- Values are set and their text is not empty. -/
def hasValue (c : Condition) : Bool :=
  c.joined.any (· ≠ "")

/-- The condition may be compiled as far as the user can tell. -/
def isValid (c : Condition) : Bool :=
  (c.isNamed && c.needsNoValue) || c.hasValue

end Condition

/-- There is a condition, and all conditions are valid. -/
def Group.isValid (g : Group) : Bool :=
  !g.conditions.isEmpty && g.conditions.all Condition.isValid

/-- All groups are valid. -/
def validGroups (gs : List Group) : Bool :=
  gs.all Group.isValid

/-- The groups, where they are set, are valid. -/
def Tree.isValid (t : Tree) : Bool :=
  t.groups.all validGroups

end Criteria

end LayerQuery
