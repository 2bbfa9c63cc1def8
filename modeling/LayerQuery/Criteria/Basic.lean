import LayerQuery.Number.Spelling
/-!
# Criteria

A user asks for features by a tree of exactly two levels: groups of
conditions, each group joined by a connective and the groups joined by
another. A condition tests one attribute of one feature type, possibly
one that is reached through a chain of related feature types. It is
filled in step by step, so all of it but its id may still be unset.
-/

namespace LayerQuery

/-- What identifies a feature type. -/
abbrev FeatureTypeId := Int64

/-- The type of an attribute. -/
inductive AttributeType where
  | string
  | integer
  | double
  | boolean
  | date
  | timestamp
  | geometry
  /-- No type of its own: its name is the operator that asks whether there is a value. -/
  | null
  deriving DecidableEq, Repr

namespace AttributeType

/-- The name of an attribute type. -/
def name : AttributeType → String
  | .string => "string"
  | .integer => "integer"
  | .double => "double"
  | .boolean => "boolean"
  | .date => "date"
  | .timestamp => "timestamp"
  | .geometry => "geometry"
  | .null => "null"

/-- Values of the type are numbers. -/
def isNumeric (t : AttributeType) : Bool :=
  t == .integer || t == .double

/-- All attribute types. -/
def all : List AttributeType :=
  [.string, .integer, .double, .boolean, .date, .timestamp, .geometry, .null]

end AttributeType

namespace Criteria

/-- How conditions or groups are joined. -/
inductive Connective where
  | and
  | or
  deriving DecidableEq, Repr

/-- The word between the parts that a connective joins. -/
def Connective.word : Connective → String
  | .and => "AND"
  | .or => "OR"

/-- How many groups the user wants to see; it does not bear on the query. -/
inductive Kind where
  | simple
  | multiple
  deriving DecidableEq, Repr

/-- One value of a condition. -/
inductive Value where
  | boolean (value : Bool)
  | number (value : Binary64)
  | text (value : String)
  deriving DecidableEq, Repr

/-- A value as text. A whole number below `10 ^ 15` is written as an integer. -/
def Value.display : Value → String
  | .boolean b => if b then "true" else "false"
  | .number x =>
    match x.toIntBelow? (tenPow 15) with
    | some n => integerText n
    | none => x.queryText
  | .text s => s

/-- The values that are there among those of a list. -/
def present (values : List (Option Value)) : List Value :=
  values.filterMap id

/-- The texts of the values that are there, one after the other. -/
def joinedText (values : List (Option Value)) : String :=
  String.join ((present values).map Value.display)

/-- A test of one attribute, as far as it is filled in. -/
structure Condition where
  id : String
  /-- The feature type that has the attribute. -/
  source : Option FeatureTypeId := none
  attributeName : Option String := none
  attributeType : Option AttributeType := none
  /-- The token of the operator. -/
  operator : Option String := none
  values : Option (List (Option Value)) := none
  /-- The feature types on the way to the source, the outermost first and the source itself not
  among them. -/
  relatedTo : Option (List FeatureTypeId) := none
  deriving DecidableEq, Repr

/-- The values as one text, if values are set. -/
def Condition.joined (c : Condition) : Option String :=
  c.values.map joinedText

/-- Conditions joined by one connective. -/
structure Group where
  id : String
  connective : Connective
  conditions : List Condition
  deriving DecidableEq, Repr

/-- Groups joined by one connective; while they are unset there is nothing to ask. -/
structure Tree where
  kind : Kind
  connective : Connective
  groups : Option (List Group)
  deriving DecidableEq, Repr

end Criteria

end LayerQuery
