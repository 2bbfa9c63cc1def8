import LayerQuery.Criteria.Codec
/-!
# Fragments of a relation chain

A filter on a related feature type is handed on as a list of fragments,
one for each feature type on the way and a last one, the leaf, which
carries the filter. Each fragment names its own feature type, and except
for the first one also its parent and the feature type of that.
-/

namespace LayerQuery

open Json

namespace Relations

/-- One step of a relation chain. -/
structure Fragment where
  id : String
  parentId : Option String
  featureType : FeatureTypeId
  parentType : Option FeatureTypeId
  /-- The filter, which only the leaf carries. -/
  filter : Option String
  deriving DecidableEq, Repr

namespace Fragment

/-- The codec of fragments. -/
def codec [Rounding] : Codec Fragment :=
  Fields.codec
    (.cons (.required "dataId" .text) <|
      .cons (.optional "parentId" (.option .text)) <|
      .cons (.required "featureType" .int64) <|
      .cons (.optional "parentFeatureType" (.option .int64)) <|
      .cons (.optional "filter" (.option .text)) .nil)
    "RelatedFilterFragment"
    (fun (id, parentId, featureType, parentType, filter, ()) =>
      ⟨id, parentId, featureType, parentType, filter⟩)
    (fun f => (f.id, f.parentId, f.featureType, f.parentType, f.filter, ()))

/-- The id of the `n`th fragment of a chain, counted from zero. -/
def idOf (n : Nat) : String :=
  "condition-" ++ Nat.repr n

/-- The fragment at place `n`, below a parent at the place before it. -/
def place (n : Nat) (parentType : Option FeatureTypeId) (featureType : FeatureTypeId)
    (filter : Option String) : Fragment :=
  ⟨idOf n, parentType.map fun _ => idOf (n - 1), featureType, parentType, filter⟩

/-- The fragments from place `n` on: the feature types on the way, and the leaf with the filter. -/
def layFrom (filter : String) (source : FeatureTypeId) :
    Nat → Option FeatureTypeId → List FeatureTypeId → List Fragment
  | n, parentType, [] => [Fragment.place n parentType source (some filter)]
  | n, parentType, t :: ts =>
    Fragment.place n parentType t none :: layFrom filter source (n + 1) (some t) ts

/-- The fragments of the chain that leads through `relatedTo` to a filter on `source`. -/
def lay (filter : String) (relatedTo : List FeatureTypeId) (source : FeatureTypeId) :
    List Fragment :=
  layFrom filter source 0 none relatedTo

end Fragment

end Relations

end LayerQuery
