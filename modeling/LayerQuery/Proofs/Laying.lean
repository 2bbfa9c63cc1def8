import LayerQuery.Proofs.Protocol
import LayerQuery.Proofs.Query
import Mathlib.Data.List.Chain
import Mathlib.Data.List.Nodup
/-!
# What a combiner may rely on

Fragments are laid by a recursion that hands the place and the feature
type of each fragment on to the next, while a combiner sees the finished
list alone. This file says what there is to see: the fragments stand in
one line (`Fragment.IsLine`), each linked to the one before it, and the
filter is on the last one only.

The line is laid for any filter, any path and any source, the empty path
included. And nothing else is ever handed on: whatever the collaborators
of a compilation are, each list of fragments that they are asked to scope
is the line of one of the conditions, and the root id that comes with it
is the id of its first fragment (`Exchange.HandsOverLine`).
-/

namespace LayerQuery

open Criteria

namespace Relations

namespace Fragment

/-- One fragment is the parent of another, which names its id and its
feature type. -/
structure IsParentOf (f g : Fragment) : Prop where
  parentId : g.parentId = some f.id
  parentType : g.parentType = some f.featureType

/-- The fragments stand in one line that starts at the root, leads
through the types to the source, and has the filter at its end. -/
structure IsLine (rootId : String) (types : List FeatureTypeId) (source : FeatureTypeId)
    (filter : String) (fragments : List Fragment) : Prop where
  /-- There is one fragment more than there are types on the way. -/
  length : fragments.length = types.length + 1
  /-- No id comes twice. -/
  distinct : (fragments.map Fragment.id).Nodup
  /-- The first fragment has the root id, and no parent. -/
  first : ∃ first, fragments.head? = some first ∧ first.id = rootId ∧
    first.parentId = none ∧ first.parentType = none
  /-- Each fragment after it has the one just before it for its parent. -/
  linked : fragments.IsChain IsParentOf
  /-- The last fragment carries the filter, and no other carries any. -/
  filters : fragments.map Fragment.filter = List.replicate types.length none ++ [some filter]
  /-- The feature types are those on the way and the source. -/
  types : fragments.map Fragment.featureType = types ++ [source]

/-! ## The line is laid

Below the first place a fragment has a parent, so the induction runs over
the rest of a line at any place and below any parent. -/

variable (filter : String) (source : FeatureTypeId)

theorem isChain_layFrom (n : Nat) (parentType : Option FeatureTypeId)
    (types : List FeatureTypeId) :
    (layFrom filter source n parentType types).IsChain IsParentOf := by
  induction types generalizing n parentType with
  | nil => exact List.isChain_singleton _
  | cons t types ih =>
    obtain ⟨next, rest, hnext, -, hparentId, hparentType, -⟩ :=
      exists_cons_layFrom filter source (n + 1) (some t) types
    have hrest := ih (n + 1) (some t)
    rw [hnext] at hrest
    rw [layFrom, hnext]
    exact .cons_cons ⟨hparentId, hparentType⟩ hrest

theorem map_filter_layFrom (n : Nat) (parentType : Option FeatureTypeId)
    (types : List FeatureTypeId) :
    (layFrom filter source n parentType types).map Fragment.filter =
      List.replicate types.length none ++ [some filter] := by
  induction types generalizing n parentType with
  | nil => rfl
  | cons t types ih =>
    rw [layFrom, List.map_cons, ih, List.length_cons, List.replicate_succ]
    rfl

theorem map_featureType_layFrom (n : Nat) (parentType : Option FeatureTypeId)
    (types : List FeatureTypeId) :
    (layFrom filter source n parentType types).map Fragment.featureType = types ++ [source] := by
  induction types generalizing n parentType with
  | nil => rfl
  | cons t types ih =>
    rw [layFrom, List.map_cons, ih]
    rfl

theorem nodup_map_id_lay (types : List FeatureTypeId) :
    ((lay filter types source).map Fragment.id).Nodup := by
  rw [map_id_lay]
  exact List.nodup_range.map fun _ _ h => idOf_injective h

/-- **What is laid is a line.** -/
theorem isLine_lay (types : List FeatureTypeId) :
    IsLine (idOf 0) types source filter (lay filter types source) where
  length := length_lay filter source types
  distinct := nodup_map_id_lay filter source types
  first := by
    obtain ⟨first, rest, hlay, hid, hparentId, hparentType, -⟩ :=
      exists_cons_layFrom filter source 0 none types
    exact ⟨first, by rw [lay, hlay, List.head?_cons], hid, hparentId, hparentType⟩
  linked := isChain_layFrom filter source 0 none types
  filters := map_filter_layFrom filter source 0 none types
  types := map_featureType_layFrom filter source 0 none types

end Fragment

end Relations

open Relations

/-! ## Nothing else is handed on -/

/-- If the call is one to scope fragments, these are the line of the
condition: it leads through the types that the condition is related to,
of which there are some, to its source. -/
def Exchange.HandsOverLine (c : Condition) (x : Exchange) : Prop :=
  ∀ rootId fragments, x.call = .scope rootId fragments →
    ∃ types source filter, c.relatedTo = some types ∧ types ≠ [] ∧ c.source = some source ∧
      Fragment.IsLine rootId types source filter fragments

theorem Dialogue.handsOverLine {c : Condition} {log : List Exchange}
    {result : Except CompileError String} (h : Dialogue c log result) :
    ∀ x ∈ log, x.HandsOverLine c := by
  intro x hx rootId fragments hcall
  cases h with
  | incomplete => cases hx
  | refused | plain =>
    obtain rfl := List.mem_singleton.mp hx
    cases hcall
  | @chained t text types _ htest hchain hne =>
    rcases List.mem_cons.mp hx with rfl | hx
    · cases hcall
    · obtain rfl := List.mem_singleton.mp hx
      obtain ⟨rfl, rfl⟩ := Call.scope.inj hcall
      exact ⟨types, t.featureType, text, hchain, hne, Condition.source_eq_of_test_eq_ok htest,
        Fragment.isLine_lay text t.featureType types⟩

/-- What a compilation with watched collaborators has said. -/
def Compile.exchanges {σ : Type} (k : Collaborators (StateM σ)) (s : σ) (t : Tree) :
    List Exchange :=
  (runFrom (s, []) (Compile.tree k.watched t)).2.2

theorem Compile.exists_handsOverLine {σ : Type} (k : Collaborators (StateM σ)) (s : σ) (t : Tree) :
    ∀ x ∈ Compile.exchanges k s t, ∃ c ∈ t.conditions, x.HandsOverLine c := by
  cases hgroups : t.groups with
  | none =>
    -- nobody is called where there are no groups
    have hnone : Compile.exchanges k s t = [] := by
      rw [Compile.exchanges, Compile.tree, hgroups]
      rfl
    intro x hx
    rw [hnone] at hx
    exact absurd hx List.not_mem_nil
  | some groups =>
    obtain ⟨assembled, log, s', texts, hsaid, hturn, -⟩ := exists_inTurn_tree k hgroups s
    have hlog : Compile.exchanges k s t = log := by
      rw [Compile.exchanges, hsaid.watched [], List.nil_append]
    intro x hx
    rw [hlog] at hx
    obtain ⟨c, hc, part, answer, hdialogue, hpart⟩ := hturn.exists_dialogue_of_mem hx
    rw [Tree.conditions, hgroups, Option.getD_some]
    exact ⟨c, hc, hdialogue.handsOverLine x hpart⟩

/-- **Combiners are handed lines.** For every filter, path and source the
fragments that are laid stand in one line, which starts at the root id
that is handed on with them; and in the compilation of any tree, with any
collaborators in any state, every call to scope fragments hands over the
line of one of the conditions of the tree. -/
theorem isLine_lay_and_handsOverLine :
    (∀ filter types source, Fragment.IsLine (Fragment.idOf 0) types source filter
      (Fragment.lay filter types source)) ∧
    ∀ (σ : Type) (k : Collaborators (StateM σ)) (s : σ) (t : Tree),
      ∀ x ∈ Compile.exchanges k s t, ∃ c ∈ t.conditions, x.HandsOverLine c :=
  ⟨fun filter types source => Fragment.isLine_lay filter source types,
    fun _ => Compile.exists_handsOverLine⟩

/-- The one call to scope fragments that tiring collaborators get before
they give up is the line of the only condition with a path. -/
theorem tiring_handsOverLine :
    ∃ x ∈ Compile.exchanges (tiring 2) 0 ⟨.simple, .and, some tiringGroups⟩,
      x.call = .scope "condition-0" (Fragment.lay "9_x_=" [5, 7] 9) ∧
      ∃ filter, Fragment.IsLine "condition-0" [5, 7] 9 filter (Fragment.lay "9_x_=" [5, 7] 9) := by
  have hsaid : ⟨.scope "condition-0" (Fragment.lay "9_x_=" [5, 7] 9), .ok "condition-0"⟩ ∈
      Compile.exchanges (tiring 2) 0 ⟨.simple, .and, some tiringGroups⟩ :=
    List.mem_cons_of_mem _ List.mem_cons_self
  refine ⟨_, hsaid, rfl, ?_⟩
  obtain ⟨c, hc, hline⟩ := isLine_lay_and_handsOverLine.2 _ _ _ _ _ hsaid
  obtain ⟨types, source, filter, hrelated, -, hsource, hline⟩ := hline _ _ rfl
  obtain ⟨rfl, rfl⟩ : types = [5, 7] ∧ source = 9 := by
    simp only [Tree.conditions, Option.getD_some, tiringGroups, List.flatMap_cons,
      List.flatMap_nil, List.append_nil, List.cons_append, List.nil_append, List.mem_cons,
      List.not_mem_nil, or_false] at hc
    rcases hc with rfl | rfl | rfl
    · exact ⟨(Option.some.inj hrelated).symm, (Option.some.inj hsource).symm⟩
    · cases hrelated
    · cases hrelated
  exact ⟨filter, hline⟩

end LayerQuery
