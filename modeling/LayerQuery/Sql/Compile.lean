import LayerQuery.Criteria.Test
import LayerQuery.Number.Reading
import LayerQuery.Sql.Operator
import LayerQuery.Sql.Statement
/-!
# Tests as predicates

A test compiles to one predicate of the column that its attribute names.
The operator decides how many values are wanted: comparisons of order
take one, equality and membership one or more, matches join theirs to
one text, and the rest take none. Values that were typed as text are
read according to the type of the attribute, each on its own and before
they are counted.
-/

namespace LayerQuery

open Sql

namespace Criteria.Test

/-- The failure of a test over its values. -/
def invalid (t : Test) (problem : ValueProblem) : CompileError :=
  .invalidValue t.attributeName t.operator problem

/-- The operand of a number. Where the attribute is not of floating-point type a whole number below
`10 ^ 15` is compared as an integer. -/
def numberOperand (type : Option AttributeType) (x : Binary64) : Operand :=
  if type = some .double then .real x
  else match x.toIntBelow? (tenPow 15) with
    | some n => .integer n
    | none => .real x

/-- The truth value that a text spells. -/
def readBoolean? (s : String) : Option Bool :=
  let word := Text.keyword s
  if word = "true" then some true else if word = "false" then some false else none

/-- The operand of a text, read according to the type of the attribute. -/
def textOperand (type : Option AttributeType) (s : String) : Except ValueProblem Operand :=
  match type with
  | some .integer =>
    match readInteger? (Text.trim s) with
    | some n => .ok (.integer n)
    | none => .error (.notInteger s)
  | some .double =>
    match readNumber? (Text.trim s) with
    | some x => .ok (.real x)
    | none => .error (.notNumber s)
  | some .boolean =>
    match readBoolean? s with
    | some b => .ok (.boolean b)
    | none => .error (.notBoolean s)
  | _ => .ok (.text s)

/-- The operand of a value of an attribute. -/
def operand (type : Option AttributeType) : Value → Except ValueProblem Operand
  | .boolean b => .ok (.boolean b)
  | .number x => .ok (numberOperand type x)
  | .text s => textOperand type s

/-- The operands of all values that are there, of which there must be one. -/
def operands (t : Test) : Except CompileError (List Operand) := do
  let os ← ((present t.values).mapM (operand t.attributeType)).mapError t.invalid
  if os.isEmpty then .error (t.invalid .noValue) else .ok os

/-- The operand of the only value that is there. -/
def singleOperand (t : Test) : Except CompileError Operand := do
  match ← t.operands with
  | [o] => .ok o
  | os => .error (t.invalid (.notSingle os.length))

/-- The text to look for, which must not be empty. -/
def soughtText (t : Test) : Except CompileError String :=
  let text := joinedText t.values
  if text = "" then .error (t.invalid .noPattern) else .ok text

/-- The attribute is a truth value and no value is given, so that the test is of the attribute
itself. -/
def isBare (t : Test) : Bool :=
  t.attributeType == some .boolean && t.values.all Option.isNone

/-- Equality with one of the values, or its denial. A single value is compared directly. -/
def equality (t : Test) (negated : Bool) : Except CompileError Predicate := do
  match ← t.operands with
  | [o] => .ok (.compare t.attributeName (if negated then .unequal else .equal) o)
  | os => .ok (.member t.attributeName negated os)

/-- The predicate of an operator applied to the attribute and values of a test. -/
def predicateOf (t : Test) : Operator → Except CompileError Predicate
  | .isNull => .ok (.isNull t.attributeName false)
  | .isNotNull => .ok (.isNull t.attributeName true)
  | .isTrue => .ok (.compare t.attributeName .equal (.boolean true))
  | .isFalse => .ok (.compare t.attributeName .equal (.boolean false))
  | .equal =>
    if t.isBare then .ok (.compare t.attributeName .equal (.boolean true)) else t.equality false
  | .unequal =>
    if t.isBare then .ok (.compare t.attributeName .unequal (.boolean true)) else t.equality true
  | .greater => t.singleOperand.map (.compare t.attributeName .greater)
  | .less => t.singleOperand.map (.compare t.attributeName .less)
  | .atLeast => t.singleOperand.map (.compare t.attributeName .atLeast)
  | .atMost => t.singleOperand.map (.compare t.attributeName .atMost)
  | .contains => t.soughtText.map fun s => .like t.attributeName false (.anywhere s)
  | .notContains => t.soughtText.map fun s => .like t.attributeName true (.anywhere s)
  | .startsWith => t.soughtText.map fun s => .like t.attributeName false (.atStart s)
  | .endsWith => t.soughtText.map fun s => .like t.attributeName false (.atEnd s)
  | .oneOf => t.operands.map (.member t.attributeName false)
  | .noneOf => t.operands.map (.member t.attributeName true)

/-- The predicate that a test compiles to. -/
def predicate (t : Test) : Except CompileError Predicate :=
  match Operator.ofToken? t.operator with
  | some operator => t.predicateOf operator
  | none => .error (.unsupported t.operator)

/-- The text of the predicate that a test compiles to. -/
def sql (t : Test) : Except CompileError String :=
  t.predicate.map Predicate.text

end Criteria.Test

end LayerQuery
