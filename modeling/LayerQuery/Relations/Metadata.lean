import LayerQuery.Criteria.Codec
/-!
# Relations between feature types

The metadata of a feature type lists its relations to other feature
types, each of which may have relations of its own: a finite forest of
`Link`s, in which the same feature type may come any number of times.
-/

namespace LayerQuery

open Json

namespace Relations

/-- The layer that the user selected. -/
structure Layer where
  featureType : FeatureTypeId
  label : String
  deriving DecidableEq, Repr

/-- A relation to another feature type, with the relations of that one. -/
structure Link where
  featureType : FeatureTypeId
  name : String
  links : List Link

/-- What holds of a link when it holds of all links in it holds of every link. -/
@[elab_as_elim]
theorem Link.inside_induction {P : Link → Prop}
    (mk : ∀ featureType name links, (∀ l ∈ links, P l) → P ⟨featureType, name, links⟩) (l : Link) :
    P l := by
  refine Link.rec (motive_1 := P) (motive_2 := fun ls => ∀ l ∈ ls, P l) mk ?_ ?_ l
  · intro l hl
    exact absurd hl List.not_mem_nil
  · intro l ls hl hls
    exact List.forall_mem_cons.mpr ⟨hl, hls⟩

/-- What is known of the relations of a feature type. -/
structure Metadata where
  featureType : Option FeatureTypeId
  links : List Link

/-- A layer with what is known of its relations, if anything is. -/
structure LayerFile where
  layer : Layer
  metadata : Option Metadata

/-! ## As JSON -/

variable [Rounding]

/-- The codec of layers. -/
def Layer.codec : Codec Layer :=
  Fields.codec
    (.cons (.required "featureType" .int64) <|
      .cons (.required "label" .text) .nil)
    "AnalysisSource"
    (fun (featureType, label, ()) => ⟨featureType, label⟩)
    (fun l => (l.featureType, l.label, ()))

namespace Link

mutual

/-- The document of a link. -/
def write : Link → Document
  | ⟨featureType, name, links⟩ =>
    .record
      [("foreignFeatureType", Codec.int64.write featureType),
        ("foreignFeatureTypeName", Codec.text.write name),
        ("relations", .list (writeAll links))]

/-- The documents of several links. -/
def writeAll : List Link → List Document
  | [] => []
  | l :: ls => l.write :: writeAll ls

end

/-- The codec of links, given the one for the links inside. -/
def codecOver (inner : Codec Link) : Codec Link :=
  Fields.codec
    (.cons (.required "foreignFeatureType" .int64) <|
      .cons (.required "foreignFeatureTypeName" .text) <|
      .cons (.defaulted "relations" (.list inner) []) .nil)
    "Relation"
    (fun (featureType, name, links, ()) => ⟨featureType, name, links⟩)
    (fun l => (l.featureType, l.name, l.links, ()))

/-- Reads a link inside which links are nested less than `levels` deep. -/
def readWithin : Nat → Document → Except Fault Link
  | 0, _ => .error .malformed
  | levels + 1, d => (codecOver ⟨readWithin levels, write⟩).read d

/-- The codec of links. Documents are not read more than `depthLimit` deep, so that the bound on the
nesting of links is never met. -/
def codec : Codec Link := ⟨readWithin (depthLimit + 1), write⟩

theorem writeAll_eq_map (ls : List Link) : writeAll ls = ls.map write := by
  induction ls with
  | nil => simp [writeAll]
  | cons l ls ih => simp [writeAll, ih]

end Link

/-- The codec of metadata. -/
def Metadata.codec : Codec Metadata :=
  Fields.codec
    (.cons (.optional "featureType" (.option .int64)) <|
      .cons (.defaulted "relations" (.list Link.codec) []) .nil)
    "AttributeMetadata"
    (fun (featureType, links, ()) => ⟨featureType, links⟩)
    (fun m => (m.featureType, m.links, ()))

/-- The codec of layer files. -/
def LayerFile.codec : Codec LayerFile :=
  Fields.codec
    (.cons (.required "source" Layer.codec) <|
      .cons (.optional "metadata" (.option Metadata.codec)) .nil)
    "LayerFile"
    (fun (layer, metadata, ()) => ⟨layer, metadata⟩)
    (fun f => (f.layer, f.metadata, ()))

end Relations

end LayerQuery
