import LayerQuery.Relations.Metadata
/-!
# The outline of sources

What a condition may test is offered as a list: the selected layer first,
then the links of its metadata in pre-order, each indented by its depth
and with the chain of feature types that leads to it. The links inside a
link are listed only if there are at least two of them, and if the
feature type of the link is new: a type that is the selected one or comes
earlier in the chain is listed but not entered again.
-/

namespace LayerQuery

open Json

namespace Relations

/-- A source that a condition may test. -/
structure Entry where
  featureType : FeatureTypeId
  label : String
  /-- The feature types between the selected layer and this one, the outermost first; unset for the
  selected layer itself. -/
  relatedTo : Option (List FeatureTypeId)
  deriving DecidableEq, Repr

/-- The codec of entries. -/
def Entry.codec [Rounding] : Codec Entry :=
  Fields.codec
    (.cons (.required "featureType" .int64) <|
      .cons (.required "label" .text) <|
      .cons (.optional "relatedTo" (.option (.list .int64))) .nil)
    "AttributeSource"
    (fun (featureType, label, relatedTo, ()) => ⟨featureType, label, relatedTo⟩)
    (fun e => (e.featureType, e.label, e.relatedTo, ()))

/-- What stands before a label at some depth: four dashes for each level, and a space. -/
def indent (depth : Nat) : String :=
  if depth = 0 then "" else String.ofList (List.replicate (4 * depth) '-' ++ [' '])

/-- The links inside a link are listed. -/
def Link.isExpanded (root : FeatureTypeId) (chain : List FeatureTypeId) (l : Link) : Bool :=
  1 < l.links.length && l.featureType ≠ root && !chain.contains l.featureType

mutual

/-- The entries of a link that is reached through `chain`, and of what is listed inside it. -/
def Link.outline (labelOf : String → Option String) (root : FeatureTypeId)
    (chain : List FeatureTypeId) : Link → List Entry
  | ⟨featureType, name, links⟩ =>
    ⟨featureType, indent chain.length ++ (labelOf name).getD name, some chain⟩ ::
      if Link.isExpanded root chain ⟨featureType, name, links⟩ then
        outlineAll labelOf root (chain ++ [featureType]) links
      else []

/-- The entries of links that are reached through `chain`, in their order. -/
def outlineAll (labelOf : String → Option String) (root : FeatureTypeId)
    (chain : List FeatureTypeId) : List Link → List Entry
  | [] => []
  | l :: ls => Link.outline labelOf root chain l ++ outlineAll labelOf root chain ls

end

/-- The sources for a selected layer; without metadata there are none, not even the layer. -/
def sources (labelOf : String → Option String) (layer : Layer) (metadata : Option Metadata) :
    List Entry :=
  match metadata with
  | none => []
  | some m => ⟨layer.featureType, layer.label, none⟩ ::
      outlineAll labelOf layer.featureType [] m.links

end Relations

end LayerQuery
