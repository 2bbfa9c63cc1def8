import LayerQuery.Compile.Error
import LayerQuery.Criteria.Codec
/-!
# Attribute tests

A condition that names its source, attribute and operator is a test of
that attribute, described by a `Test`. A test knows nothing of relation
chains; what is compiled for it is scoped afterwards.
-/

namespace LayerQuery

open Json

namespace Criteria

/-- A test of one attribute of one feature type. -/
structure Test where
  /-- Source, attribute and operator in one text. -/
  id : String
  featureType : FeatureTypeId
  attributeName : String
  /-- The token of the operator. -/
  operator : String
  values : List (Option Value)
  attributeType : Option AttributeType
  deriving DecidableEq, Repr

/-- The id of a test: what it tests, joined by underscores. -/
def Test.idOf (source : FeatureTypeId) (attributeName operator : String) : String :=
  integerText source.toInt ++ "_" ++ attributeName ++ "_" ++ operator

/-- The test that a condition describes. Of the fields that it needs, the first unset one is the
reason to fail. -/
def Condition.test (c : Condition) : Except CompileError Test :=
  match c.source, c.attributeName, c.operator with
  | none, _, _ => .error (.incomplete c.id .source)
  | some _, none, _ => .error (.incomplete c.id .attributeName)
  | some _, some _, none => .error (.incomplete c.id .operator)
  | some source, some name, some operator =>
    .ok ⟨Test.idOf source name operator, source, name, operator, c.values.getD [], c.attributeType⟩

/-- The codec of tests. -/
def Test.codec [Rounding] : Codec Test :=
  Fields.codec
    (.cons (.required "dataId" .text) <|
      .cons (.required "featureType" .int64) <|
      .cons (.required "attribute" .text) <|
      .cons (.required "condition" .text) <|
      .cons (.defaulted "value" (.list (.option Value.codec)) []) <|
      .cons (.optional "attributeType" (.option AttributeType.codec)) .nil)
    "AttributeFilter"
    (fun (id, featureType, name, operator, values, type, ()) =>
      ⟨id, featureType, name, operator, values, type⟩)
    (fun t =>
      (t.id, t.featureType, t.attributeName, t.operator, t.values, t.attributeType, ()))

end Criteria

end LayerQuery
