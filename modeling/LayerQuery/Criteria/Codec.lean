import LayerQuery.Criteria.Basic
import LayerQuery.Json.Record
/-!
# Criteria as JSON

The codecs of trees, groups, conditions and what they consist of. What
is unset is left out of the written form, and may be left out or null in
what is read. The source of a condition is read from any value at all:
one that is not a whole number leaves the source unset instead of
spoiling the tree.
-/

namespace LayerQuery

open Json

variable [Rounding]

/-- Attribute types go by their names. -/
def AttributeType.codec : Codec AttributeType :=
  .choice (AttributeType.all.map fun t => (t.name, t))

namespace Criteria

/-- Connectives go by their words. -/
def Connective.codec : Codec Connective :=
  .choice [("AND", .and), ("OR", .or)]

/-- Kinds go by their names. -/
def Kind.codec : Codec Kind :=
  .choice [("simple", .simple), ("multiple", .multiple)]

/-! ## Values -/

/-- The value that a sound document holds, if it is a scalar other than null. -/
def Value.ofDocument? : Document → Option Value
  | .boolean b => some (.boolean b)
  | .number n => some (.number (realOfNumeral n))
  | .string s => s.map .text
  | _ => none

/-- Any document is taken whole before it is judged. -/
def Value.read (d : Document) : Except Fault Value :=
  if d.isSound then
    match Value.ofDocument? d with
    | some v => .ok v
    | none => .error (.data (.noAlternative "ConditionValue"))
  else .error .malformed

/-- A number that is not finite has no form of its own and is written as null. -/
def Value.write : Value → Document
  | .boolean b => .boolean b
  | .number x =>
    match x.numeral? with
    | some n => .number n
    | none => .null
  | .text s => .ofText s

/-- Values are scalars of three kinds. -/
def Value.codec : Codec Value := ⟨Value.read, Value.write⟩

/-! ## Sources -/

/-- The feature type that a number names. An integer literal that fits a signed word does; any other
literal does where its floating-point value is a whole number below `9 * 10 ^ 15`, up to which whole
numbers are not confused with one another. -/
def sourceOfNumeral? (n : Numeral) : Option FeatureTypeId :=
  match numberOfNumeral? n with
  | some (.integer i) => if inWord i then some (Int64.ofInt i) else none
  | some (.real x) => (x.toIntBelow? (9 * tenPow 15)).map Int64.ofInt
  | none => none

/-- The feature type that a document names; only a number names one. -/
def sourceOfDocument? : Document → Option FeatureTypeId
  | .number n => sourceOfNumeral? n
  | _ => none

/-- Sources are read from any sound document. -/
def sourceCodec : Codec (Option FeatureTypeId) where
  read d := if d.isSound then .ok (sourceOfDocument? d) else .error .malformed
  write := (Codec.option .int64).write

/-! ## Records -/

/-- The codec of conditions. -/
def Condition.codec : Codec Condition :=
  Fields.codec
    (.cons (.required "id" .text) <|
      .cons (.optional "source" sourceCodec) <|
      .cons (.optional "attribute" (.option .text)) <|
      .cons (.optional "attributeType" (.option AttributeType.codec)) <|
      .cons (.optional "condition" (.option .text)) <|
      .cons (.optional "value" (.option (.list (.option Value.codec)))) <|
      .cons (.optional "relatedTo" (.option (.list .int64))) .nil)
    "CriteriaCondition"
    (fun (id, source, name, type, operator, values, relatedTo, ()) =>
      ⟨id, source, name, type, operator, values, relatedTo⟩)
    (fun c =>
      (c.id, c.source, c.attributeName, c.attributeType, c.operator, c.values, c.relatedTo, ()))

/-- The codec of groups. -/
def Group.codec : Codec Group :=
  Fields.codec
    (.cons (.required "id" .text) <|
      .cons (.defaulted "operator" Connective.codec .and) <|
      .cons (.defaulted "criteria" (.list Condition.codec) []) .nil)
    "CriteriaGroup"
    (fun (id, connective, conditions, ()) => ⟨id, connective, conditions⟩)
    (fun g => (g.id, g.connective, g.conditions, ()))

/-- The codec of trees. -/
def Tree.codec : Codec Tree :=
  Fields.codec
    (.cons (.defaulted "type" Kind.codec .simple) <|
      .cons (.defaulted "operator" Connective.codec .and) <|
      .cons (.optional "groups" (.option (.list Group.codec))) .nil)
    "CriteriaTree"
    (fun (kind, connective, groups, ()) => ⟨kind, connective, groups⟩)
    (fun t => (t.kind, t.connective, t.groups, ()))

end Criteria

end LayerQuery
