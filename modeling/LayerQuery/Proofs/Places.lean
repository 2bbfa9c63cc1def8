import LayerQuery.Proofs.Query
import LayerQuery.Relations.Outline
/-!
# The places of an outline

Every entry of an outline but the first stands for a link somewhere in
the forest of relations. This file keeps the links that lead there, where
the outline only keeps their feature types: `placesAll` lists the places
in the order of the outline, and the outline is what it shows of them
(`sources_eq`). The links that lead to a place are a way down the forest
(`isWay_of_mem_placesAll`), and so the hops of a query are links that the
metadata has, from a direct relation of the layer down to the place.
-/

namespace LayerQuery

open Criteria

namespace Relations

/-! ## Ways down a forest -/

/-- Links one below the other, the first one of the forest itself. -/
inductive IsWay : List Link → List Link → Prop
  | last {forest : List Link} {l : Link} (h : l ∈ forest) : IsWay forest [l]
  | down {forest way : List Link} {l : Link} (h : l ∈ forest) (hway : IsWay l.links way) :
    IsWay forest (l :: way)

/-- The pairs of links that follow each other on a way. -/
def edges (way : List Link) : List (Link × Link) :=
  way.zip way.tail

/-- The hop that an edge is written as. -/
def edgeHop (edge : Link × Link) : FeatureTypeId × FeatureTypeId :=
  (edge.1.featureType, edge.2.featureType)

/-- The hops of a way are its edges, in their order. -/
theorem hops_map_featureType (way : List Link) :
    hops (way.map Link.featureType) = (edges way).map edgeHop := by
  rw [hops, ← List.map_tail, List.zip_map]
  rfl

/-- A way starts with a link of the forest. -/
theorem IsWay.head_mem {forest way : List Link} {l : Link} (h : IsWay forest (l :: way)) :
    l ∈ forest := by
  cases h with
  | last h => exact h
  | down h _ => exact h

/-- **Every edge of a way leads to a relation of the link above.** -/
theorem IsWay.mem_links {forest way : List Link} (h : IsWay forest way) :
    ∀ edge ∈ edges way, edge.2 ∈ edge.1.links := by
  induction h with
  | last => exact fun edge hedge => absurd hedge List.not_mem_nil
  | @down forest way l _ hway ih =>
    cases way with
    | nil => cases hway
    | cons l' rest =>
      intro edge hedge
      rcases List.mem_cons.mp hedge with rfl | hedge
      · exact hway.head_mem
      · exact ih edge hedge

theorem IsWay.mono {forest forest' way : List Link} (h : IsWay forest way)
    (hforest : ∀ l ∈ forest, l ∈ forest') : IsWay forest' way := by
  cases h with
  | last h => exact .last (hforest _ h)
  | down h hway => exact .down (hforest _ h) hway

/-! ## Places -/

/-- A link in a forest, with the links that lead to it. -/
structure Place where
  above : List Link
  link : Link

namespace Place

/-- The way down to a place, the link itself included. -/
def way (p : Place) : List Link :=
  p.above ++ [p.link]

/-- The entry for a place: the feature type of the link, its label behind
the indent for its depth, and the feature types of the links above. -/
def entry (labelOf : String → Option String) (p : Place) : Entry where
  featureType := p.link.featureType
  label := indent p.above.length ++ (labelOf p.link.name).getD p.link.name
  relatedTo := some (p.above.map Link.featureType)

end Place

mutual

/-- The places that are listed for a link below `above`: its own, and
those inside it. -/
def Link.places (root : FeatureTypeId) (above : List Link) : Link → List Place
  | ⟨featureType, name, links⟩ =>
    ⟨above, ⟨featureType, name, links⟩⟩ ::
      if Link.isExpanded root (above.map Link.featureType) ⟨featureType, name, links⟩ then
        placesAll root (above ++ [⟨featureType, name, links⟩]) links
      else []

/-- The places that are listed for links below `above`, in their order. -/
def placesAll (root : FeatureTypeId) (above : List Link) : List Link → List Place
  | [] => []
  | l :: ls => l.places root above ++ placesAll root above ls

end

section Listed

variable {root : FeatureTypeId}

mutual

theorem outline_eq_map (labelOf : String → Option String) (root : FeatureTypeId)
    (above : List Link) : ∀ l : Link,
      l.outline labelOf root (above.map Link.featureType) =
        (l.places root above).map (Place.entry labelOf)
  | ⟨featureType, name, links⟩ => by
    have hinside := outlineAll_eq_map labelOf root (above ++ [⟨featureType, name, links⟩]) links
    rw [List.map_append, List.map_singleton] at hinside
    rw [Link.outline, Link.places, List.map_cons, apply_ite (List.map (Place.entry labelOf)),
      hinside]
    simp only [Place.entry, List.length_map, List.map_nil]

/-- **What an outline shows are the entries of its places.** -/
theorem outlineAll_eq_map (labelOf : String → Option String) (root : FeatureTypeId)
    (above : List Link) : ∀ ls : List Link,
      outlineAll labelOf root (above.map Link.featureType) ls =
        (placesAll root above ls).map (Place.entry labelOf)
  | [] => rfl
  | l :: ls => by
    rw [outlineAll, placesAll, List.map_append, outline_eq_map labelOf root above l,
      outlineAll_eq_map labelOf root above ls]

end

mutual

theorem exists_isWay_of_mem_places (above : List Link) (p : Place) :
    ∀ l : Link, p ∈ l.places root above →
      ∃ below, p.way = above ++ below ∧ ∀ forest, l ∈ forest → IsWay forest below
  | ⟨featureType, name, links⟩ => by
    intro h
    rw [Link.places, List.mem_cons] at h
    rcases h with rfl | h
    · exact ⟨[⟨featureType, name, links⟩], rfl, fun _ hl => .last hl⟩
    · split at h
      · obtain ⟨below, hway, hbelow⟩ := exists_isWay_of_mem_placesAll _ p links h
        refine ⟨⟨featureType, name, links⟩ :: below, ?_, fun _ hl => .down hl hbelow⟩
        rw [hway, List.append_assoc, List.singleton_append]
      · exact absurd h List.not_mem_nil

/-- Below the links that are there already, a place is at the end of a
way. -/
theorem exists_isWay_of_mem_placesAll (above : List Link) (p : Place) :
    ∀ ls : List Link, p ∈ placesAll root above ls → ∃ below, p.way = above ++ below ∧ IsWay ls below
  | [] => by
    intro h
    exact absurd h List.not_mem_nil
  | l :: ls => by
    intro h
    rw [placesAll, List.mem_append] at h
    rcases h with h | h
    · obtain ⟨below, hway, hbelow⟩ := exists_isWay_of_mem_places above p l h
      exact ⟨below, hway, hbelow _ List.mem_cons_self⟩
    · obtain ⟨below, hway, hbelow⟩ := exists_isWay_of_mem_placesAll above p ls h
      exact ⟨below, hway, hbelow.mono fun _ => List.mem_cons_of_mem l⟩

end

/-- **A place of an outline is at the end of a way down the forest.** -/
theorem isWay_of_mem_placesAll {p : Place} {ls : List Link} (h : p ∈ placesAll root [] ls) :
    IsWay ls p.way := by
  obtain ⟨below, hway, hbelow⟩ := exists_isWay_of_mem_placesAll [] p ls h
  rw [hway, List.nil_append]
  exact hbelow

end Listed

/-- The places that the outline of a layer lists. -/
def Metadata.places (m : Metadata) (layer : Layer) : List Place :=
  placesAll layer.featureType [] m.links

theorem sources_eq (labelOf : String → Option String) (layer : Layer) (m : Metadata) :
    sources labelOf layer (some m) =
      ⟨layer.featureType, layer.label, none⟩ :: (m.places layer).map (Place.entry labelOf) :=
  congrArg _ (outlineAll_eq_map labelOf layer.featureType [] m.links)

/-- An entry with a chain is the one of a place. -/
theorem exists_place_of_getElem? {labelOf : String → Option String} {layer : Layer}
    {metadata : Option Metadata} {i : Nat} {e : Entry} {types : List FeatureTypeId}
    (h : (sources labelOf layer metadata)[i]? = some e) (hrelated : e.relatedTo = some types) :
    ∃ m j p, metadata = some m ∧ i = j + 1 ∧ (m.places layer)[j]? = some p ∧
      e = p.entry labelOf := by
  cases metadata with
  | none => cases h
  | some m =>
    rw [sources_eq] at h
    cases i with
    | zero =>
      -- the layer's own entry has no chain
      obtain rfl := Option.some.inj h
      cases hrelated
    | succ j =>
      rw [List.getElem?_cons_succ, List.getElem?_map] at h
      obtain ⟨p, hp, rfl⟩ := Option.map_eq_some_iff.mp h
      exact ⟨m, j, p, rfl, rfl, hp, rfl⟩

/-! ## Queries on a place -/

/-- The hops through the chain of a place to its feature type are the
edges of its way. -/
theorem Place.hops_eq (p : Place) :
    hops (p.above.map Link.featureType ++ [p.link.featureType]) = (edges p.way).map edgeHop := by
  rw [← hops_map_featureType, Place.way, List.map_append, List.map_singleton]

/-- **The hops of a query are relations of the metadata.** Take any entry
of an outline that has a chain, and a condition on it that compiles. The
entry was listed for a link of the forest. The query is the predicate of
the condition inside one call for each edge of the way down to that link,
the outermost first; the way starts with a direct relation of the layer,
and every next link on it is a relation of the one above. -/
theorem query_nests_way {labelOf : String → Option String} {layer : Layer}
    {metadata : Option Metadata} {i : Nat} {e : Entry} {c : Condition} {q : String}
    (he : (sources labelOf layer metadata)[i]? = some e) (hchain : e.relatedTo.getD [] ≠ [])
    (hsource : c.source = some e.featureType) (hrelated : c.relatedTo = e.relatedTo)
    (hq : c.query = .ok q) :
    ∃ m j p, metadata = some m ∧ i = j + 1 ∧ (m.places layer)[j]? = some p ∧
      e = p.entry labelOf ∧ IsWay m.links p.way ∧
      (∀ edge ∈ edges p.way, edge.2 ∈ edge.1.links) ∧
      ∃ leaf, c.test.bind Test.sql = .ok leaf ∧
        q = ((edges p.way).map edgeHop).foldr hopCall leaf := by
  obtain ⟨types, htypes⟩ : ∃ types, e.relatedTo = some types := by
    cases hnone : e.relatedTo with
    | none => exact absurd (by rw [hnone]; rfl) hchain
    | some types => exact ⟨types, rfl⟩
  obtain ⟨m, j, p, hm, hi, hp, rfl⟩ := exists_place_of_getElem? he htypes
  have hway : IsWay m.links p.way := isWay_of_mem_placesAll (List.mem_of_getElem? hp)
  rw [Condition.query_eq] at hq
  obtain ⟨t, ht, hq⟩ := eq_ok_of_bind_eq_ok hq
  obtain ⟨leaf, hleaf, rfl⟩ := eq_ok_of_map_eq_ok hq
  have htype : t.featureType = p.link.featureType :=
    Option.some.inj ((Condition.source_eq_of_test_eq_ok ht).symm.trans hsource)
  refine ⟨m, j, p, hm, hi, hp, rfl, hway, hway.mem_links, leaf, ?_, ?_⟩
  · simpa only [ht, Except.bind] using hleaf
  · rw [← p.hops_eq, hrelated, htype, Place.entry, Option.getD_some, nested]

/-- Trees have parts, which have sides, which have bolts and nuts; a part
has a name besides, so that all of it is listed. -/
def deepMetadata : Metadata :=
  ⟨none, [⟨3, "part", [⟨6, "name", []⟩, ⟨7, "side", [⟨4, "bolt", []⟩, ⟨5, "nut", []⟩]⟩]⟩]⟩

/-- Whether the nuts on the sides of a part have no size. -/
def whetherNutSizeNull : Condition :=
  { id := "criteria-1", source := some 5, attributeName := some "size", operator := some "null",
    relatedTo := some [3, 7] }

/-- A nut is reached from its part through the side that it is on. -/
theorem query_nut_nests_way :
    (sources (fun _ => none) ⟨1, "Trees"⟩ (some deepMetadata))[5]? =
      some ⟨5, "-------- nut", some [3, 7]⟩ ∧
    whetherNutSizeNull.query =
      .ok "RELATED_LAYER(3, 7, RELATED_LAYER(7, 5, \"size\" IS NULL))" ∧
    ∃ p ∈ deepMetadata.places ⟨1, "Trees"⟩, IsWay deepMetadata.links p.way ∧
      p.link.featureType = 5 ∧ p.above.map Link.featureType = [3, 7] := by
  have he : (sources (fun _ => none) ⟨1, "Trees"⟩ (some deepMetadata))[5]? =
      some ⟨5, "-------- nut", some [3, 7]⟩ := by decide
  have hq : whetherNutSizeNull.query =
      .ok "RELATED_LAYER(3, 7, RELATED_LAYER(7, 5, \"size\" IS NULL))" := by decide +kernel
  obtain ⟨m, j, p, hm, -, hp, hentry, hway, -, -⟩ := query_nests_way he (by decide) rfl rfl hq
  obtain rfl := Option.some.inj hm
  obtain ⟨htype, -, hrelated⟩ := Entry.mk.inj hentry
  exact ⟨he, hq, p, List.mem_of_getElem? hp, hway, htype.symm, (Option.some.inj hrelated).symm⟩

end Relations

end LayerQuery
