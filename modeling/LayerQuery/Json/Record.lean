import LayerQuery.Json.Codec
/-!
# Records

A record is described once, by the list of its fields in order, and is
read and written by that description. It is written as an object. It is
read from an object, whose members may come in any order and may include
others that are not fields, or from a list of the field values in order,
from which the last ones may be missing.

In an object a field that comes twice is refused where its name comes the
second time, and a field that is missing is noticed at the end, the
first one in the order of the fields. A member that is not a field is
passed over unseen.
-/

namespace LayerQuery

namespace Json

/-- A field of a record. -/
structure Field (α : Type) where
  name : String
  codec : Codec α
  /-- The value of a field that is not given; a field without one has to be given. -/
  absent : Option α
  /-- The values that are written by leaving the field out. -/
  omitted : α → Bool

namespace Field

variable {α : Type}

/-- A field that has to be given. -/
def required (name : String) (codec : Codec α) : Field α :=
  ⟨name, codec, none, fun _ => false⟩

/-- A field with a value of its own for when it is not given. -/
def defaulted (name : String) (codec : Codec α) (value : α) : Field α :=
  ⟨name, codec, some value, fun _ => false⟩

/-- A field that may be unset, which is written by leaving it out. -/
def optional (name : String) (codec : Codec (Option α)) : Field (Option α) :=
  ⟨name, codec, some none, Option.isNone⟩

end Field

/-- The fields of a record in order: `γ` is the tuple of their values, and `σ` the tuple of the
places that hold them while the members of an object are read. -/
inductive Fields : (γ σ : Type) → Type 1 where
  | nil : Fields Unit Unit
  | cons {α γ σ : Type} (field : Field α) (rest : Fields γ σ) : Fields (α × γ) (Option α × σ)

namespace Fields

/-- How many fields there are. -/
def count : {γ σ : Type} → Fields γ σ → Nat
  | _, _, .nil => 0
  | _, _, .cons _ rest => rest.count + 1

/-- The places before the first member. -/
def blank : {γ σ : Type} → Fields γ σ → σ
  | _, _, .nil => ()
  | _, _, .cons _ rest => (none, rest.blank)

/-- Puts the value of a member into the place of the field with its name, if there is one. -/
def put : {γ σ : Type} → Fields γ σ → σ → String → Document → Option (Except Fault σ)
  | _, _, .nil, _, _, _ => none
  | _, _, .cons field rest, (place, places), name, d =>
    if field.name = name then
      some <| match place with
        | some _ => .error (.data (.duplicateField name))
        | none => (field.codec.read d).map fun a => (some a, places)
    else (rest.put places name d).map (Except.map fun places => (place, places))

/-- Puts all members into their places, the first one first. -/
def putAll {γ σ : Type} (fs : Fields γ σ) : σ → List Member → Except Fault σ
  | places, [] => .ok places
  | _, (none, _) :: _ => .error .malformed
  | places, (some name, d) :: ms =>
    match fs.put places name d with
    | none => fs.putAll places ms
    | some places => do fs.putAll (← places) ms

/-- The values in the places, each empty place filled with what an absent field stands for. -/
def complete : {γ σ : Type} → Fields γ σ → σ → Except Fault γ
  | _, _, .nil, () => .ok ()
  | _, _, .cons field rest, (place, places) => do
    let a ← match place.or field.absent with
      | some a => .ok a
      | none => .error (.data (.missingField field.name))
    let values ← rest.complete places
    .ok (a, values)

/-- The values of the fields from a list of them, `index` of them having been read before. -/
def readItems (record : String) (total : Nat) :
    {γ σ : Type} → Fields γ σ → Nat → List Document → Bool → Except Fault γ
  | _, _, .nil, _, items, closed =>
    if items.isEmpty && closed then .ok () else .error .malformed
  | _, _, .cons field rest, index, d :: ds, closed => do
    let a ← field.codec.read d
    let values ← rest.readItems record total (index + 1) ds closed
    .ok (a, values)
  | _, _, .cons field rest, index, [], closed => do
    let a ← match closed, field.absent with
      | false, _ => .error .malformed
      | true, some a => .ok a
      | true, none => .error (.data (.invalidLength index record total))
    let values ← rest.readItems record total (index + 1) [] closed
    .ok (a, values)

/-- Reads the fields of the record with the given name. -/
def read [Rounding] {γ σ : Type} (fs : Fields γ σ) (record : String) : Document → Except Fault γ
  | .object members closed => do
    let places ← fs.putAll fs.blank members
    if closed then fs.complete places else .error .malformed
  | .array items closed => fs.readItems record fs.count 0 items closed
  | d => .error (d.mismatch ("struct " ++ record))

/-- The members that write the fields. -/
def members : {γ σ : Type} → Fields γ σ → γ → List (String × Document)
  | _, _, .nil, () => []
  | _, _, .cons field rest, (a, values) =>
    if field.omitted a then rest.members values
    else (field.name, field.codec.write a) :: rest.members values

/-- The codec of a record, its values being in correspondence with the tuples of its fields. -/
def codec [Rounding] {γ σ ρ : Type} (fs : Fields γ σ) (record : String) (make : γ → ρ) (parts : ρ → γ) :
    Codec ρ where
  read d := (fs.read record d).map make
  write r := .record (fs.members (parts r))

end Fields

end Json

end LayerQuery
