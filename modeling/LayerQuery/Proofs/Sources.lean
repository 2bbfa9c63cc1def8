import LayerQuery.Proofs.Places
/-!
# Which sources a query tells apart

A condition on an entry of the outline takes the feature type of the
entry for its source and the chain of the entry for its relations. Two
entries give different queries as soon as one of them lies deeper than
the direct relations of the selected layer, for then the hops are
written out. The entry of the layer and those of its direct relations
all have no hop, and the predicate does not name the feature type: they
are exactly the entries that a query does not tell apart
(`query_eq_iff_isNear`).
-/

namespace LayerQuery

open Criteria

namespace Relations

variable {labelOf : String → Option String} {layer : Layer} {metadata : Option Metadata}

/-! ## Entries without a hop -/

namespace Entry

/-- The feature types that lead to an entry, the entry's own the last. -/
def path (e : Entry) : List FeatureTypeId :=
  e.relatedTo.getD [] ++ [e.featureType]

/-- The entry is the selected layer's own, or that of one of its direct
relations. -/
def IsNear (layer : Layer) (metadata : Option Metadata) (e : Entry) : Prop :=
  (e.relatedTo = none ∧ e.featureType = layer.featureType) ∨
    (e.relatedTo = some [] ∧ ∃ m, metadata = some m ∧ ∃ l ∈ m.links, e.featureType = l.featureType)

/-- **The near entries are those without a hop.** -/
theorem isNear_iff {e : Entry} (h : e ∈ sources labelOf layer metadata) :
    e.IsNear layer metadata ↔ e.relatedTo.getD [] = [] := by
  constructor
  · rintro (⟨hrelated, -⟩ | ⟨hrelated, -⟩)
    · rw [hrelated]
      rfl
    · rw [hrelated]
      rfl
  · intro hnil
    cases metadata with
    | none => exact absurd h List.not_mem_nil
    | some m =>
      rw [sources_eq, List.mem_cons] at h
      rcases h with rfl | h
      · exact .inl ⟨rfl, rfl⟩
      · obtain ⟨p, hp, rfl⟩ := List.mem_map.mp h
        have habove : p.above = [] := List.map_eq_nil_iff.mp hnil
        -- the way down to the place is the link alone
        have hway : IsWay m.links p.way := isWay_of_mem_placesAll hp
        rw [Place.way, habove, List.nil_append] at hway
        have hrelated : (p.entry labelOf).relatedTo = some [] := by
          simp only [Place.entry, habove, List.map_nil]
        exact .inr ⟨hrelated, m, rfl, p.link, hway.head_mem, rfl⟩

/-! ## Conditions on an entry -/

/-- A condition moved to an entry: source and chain are the entry's, all
else is kept. -/
def place (e : Entry) (c : Condition) : Condition :=
  { c with source := some e.featureType, relatedTo := e.relatedTo }

/-- **What a condition asks for does not depend on the entry**, only the
calls around it do. -/
theorem exists_query_place_eq (c : Condition) :
    ∃ leaf : Except CompileError String, ∀ e : Entry,
      (e.place c).query = leaf.map (nested e.path) := by
  cases hname : c.attributeName with
  | none =>
    refine ⟨.error (.incomplete c.id .attributeName), fun e => ?_⟩
    simp only [Condition.query_eq, Condition.test, place, hname, Except.bind, Except.map]
  | some name =>
    cases hop : c.operator with
    | none =>
      refine ⟨.error (.incomplete c.id .operator), fun e => ?_⟩
      simp only [Condition.query_eq, Condition.test, place, hname, hop, Except.bind, Except.map]
    | some operator =>
      refine ⟨Test.sql ⟨"", 0, name, operator, c.values.getD [], c.attributeType⟩, fun e => ?_⟩
      simp only [Condition.query_eq, Condition.test, place, hname, hop, Except.bind, path]
      rw [Test.sql_eq_sql _ "" _ 0]

/-- Two conditions that differ in their entries alone have one query
where the entries have no hop. -/
theorem query_place_eq {e e' : Entry} (he : e.relatedTo.getD [] = [])
    (he' : e'.relatedTo.getD [] = []) (c : Condition) :
    (e.place c).query = (e'.place c).query := by
  obtain ⟨leaf, hleaf⟩ := exists_query_place_eq c
  have hnested : nested e.path = nested e'.path := by
    funext filter
    rw [path, path, he, he', List.nil_append, List.nil_append, nested_singleton,
      nested_singleton]
  rw [hleaf e, hleaf e', hnested]

/-- **One query on two entries with a hop among them means one path.** -/
theorem path_eq_of_query_place_eq {e e' : Entry} {c : Condition} {q : String}
    (hhop : e.relatedTo.getD [] ≠ [] ∨ e'.relatedTo.getD [] ≠ [])
    (he : (e.place c).query = .ok q) (he' : (e'.place c).query = .ok q) : e.path = e'.path := by
  obtain ⟨leaf, hleaf⟩ := exists_query_place_eq c
  rw [hleaf] at he he'
  cases leaf with
  | error err => cases he
  | ok filter =>
    have hlength : ∀ f : Entry, f.relatedTo.getD [] ≠ [] → 1 < f.path.length := by
      intro f hf
      have hpos := List.length_pos_iff.mpr hf
      rw [path, List.length_append, List.length_singleton]
      omega
    have hne : ∀ f : Entry, f.path ≠ [] := fun f =>
      List.append_ne_nil_of_right_ne_nil _ (List.cons_ne_nil _ _)
    have hq : nested e.path filter = nested e'.path filter :=
      (Except.ok.inj he).trans (Except.ok.inj he').symm
    exact nested_injective (hne e) (hne e') (hhop.imp (hlength e) (hlength e')) hq

/-- Entries with a hop among them are told apart by their paths. -/
theorem eq_of_path_eq {e e' : Entry} (hhop : e.relatedTo.getD [] ≠ [] ∨ e'.relatedTo.getD [] ≠ [])
    (h : e.path = e'.path) : e.featureType = e'.featureType ∧ e.relatedTo = e'.relatedTo := by
  obtain ⟨hchain, htype⟩ := List.append_inj' h rfl
  have hset : ∀ chain : Option (List FeatureTypeId), chain.getD [] ≠ [] →
      chain = some (chain.getD []) := by
    intro chain hchain
    cases chain with
    | none => exact absurd rfl hchain
    | some types => rfl
  have hboth : e.relatedTo.getD [] ≠ [] ∧ e'.relatedTo.getD [] ≠ [] := by
    rw [hchain] at hhop ⊢
    exact ⟨hhop.elim id id, hhop.elim id id⟩
  refine ⟨(List.cons.inj htype).1, ?_⟩
  rw [hset _ hboth.1, hset _ hboth.2, hchain]

/-! ## What a query tells apart -/

/-- **Entries are told apart but for the near ones.** Take two entries of
the outline that differ in feature type or chain, and move a condition to
each. Both compile to one text exactly when the condition compiles and
both entries are near: the layer's own, or direct relations of it. -/
theorem query_eq_iff_isNear {e e' : Entry} (he : e ∈ sources labelOf layer metadata)
    (he' : e' ∈ sources labelOf layer metadata)
    (hne : e.featureType ≠ e'.featureType ∨ e.relatedTo ≠ e'.relatedTo) (c : Condition) :
    (∃ q, (e.place c).query = .ok q ∧ (e'.place c).query = .ok q) ↔
      (∃ q, (e.place c).query = .ok q) ∧ e.IsNear layer metadata ∧ e'.IsNear layer metadata := by
  rw [isNear_iff he, isNear_iff he']
  constructor
  · rintro ⟨q, hq, hq'⟩
    refine ⟨⟨q, hq⟩, ?_⟩
    by_contra hhop
    rw [not_and_or] at hhop
    obtain ⟨htype, hrelated⟩ := eq_of_path_eq hhop (path_eq_of_query_place_eq hhop hq hq')
    rcases hne with hne | hne
    · exact hne htype
    · exact hne hrelated
  · rintro ⟨⟨q, hq⟩, hnil, hnil'⟩
    exact ⟨q, hq, by rw [← query_place_eq hnil hnil', hq]⟩

/-! ## Trees, their parts and what the parts hold

A layer of trees with one direct relation, to parts, which has two
relations of its own. -/

/-- The layer of trees. -/
def trees : Layer := ⟨1, "Trees"⟩

/-- Trees have parts, and parts have bolts and nuts. -/
def treesMetadata : Metadata := ⟨none, [⟨3, "part", [⟨4, "bolt", []⟩, ⟨5, "nut", []⟩]⟩]⟩

/-- The outline of the trees, without labels. -/
def treesOutline : List Entry := sources (fun _ => none) trees (some treesMetadata)

/-- The entry of the trees. -/
def treeEntry : Entry := ⟨1, "Trees", none⟩

/-- The entry of their parts. -/
def partEntry : Entry := ⟨3, "part", some []⟩

/-- The entry of the bolts of the parts. -/
def boltEntry : Entry := ⟨4, "---- bolt", some [3]⟩

/-- Whether an attribute has no value. -/
def whetherNull : Condition :=
  { id := "criteria-1", attributeName := some "x", operator := some "null" }

/-- A bolt is told apart from the part it belongs to. -/
theorem query_bolt_iff_isNear :
    boltEntry ∈ treesOutline ∧ partEntry ∈ treesOutline ∧
    (boltEntry.featureType ≠ partEntry.featureType ∨ boltEntry.relatedTo ≠ partEntry.relatedTo) ∧
    ((∃ q, (boltEntry.place whetherNull).query = .ok q ∧
        (partEntry.place whetherNull).query = .ok q) ↔
      (∃ q, (boltEntry.place whetherNull).query = .ok q) ∧
        boltEntry.IsNear trees (some treesMetadata) ∧
        partEntry.IsNear trees (some treesMetadata)) := by
  have hbolt : boltEntry ∈ treesOutline := by decide
  have hpart : partEntry ∈ treesOutline := by decide
  have hne : boltEntry.featureType ≠ partEntry.featureType ∨
      boltEntry.relatedTo ≠ partEntry.relatedTo := by decide
  exact ⟨hbolt, hpart, hne, query_eq_iff_isNear hbolt hpart hne whetherNull⟩

/-- **A part is not told apart from the tree it belongs to**: the two
conditions name different feature types and have one query. So entries
that differ may well have one query. -/
theorem not_forall_query_ne :
    ¬ ∀ (labelOf : String → Option String) (layer : Layer) (metadata : Option Metadata)
      (e e' : Entry), e ∈ sources labelOf layer metadata → e' ∈ sources labelOf layer metadata →
      (e.featureType ≠ e'.featureType ∨ e.relatedTo ≠ e'.relatedTo) →
      ∀ (c : Condition) (q : String),
        ¬ ((e.place c).query = .ok q ∧ (e'.place c).query = .ok q) := by
  intro h
  have htree : (treeEntry.place whetherNull).query = .ok "\"x\" IS NULL" := by decide +kernel
  have hpart : (partEntry.place whetherNull).query = .ok "\"x\" IS NULL" := by decide +kernel
  exact h (fun _ => none) trees (some treesMetadata) treeEntry partEntry (by decide) (by decide)
    (by decide) whetherNull _ ⟨htree, hpart⟩

end Entry

end Relations

end LayerQuery
