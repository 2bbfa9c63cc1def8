import LayerQuery.Proofs.Leaf
/-!
# What a query is scoped through

A query of a condition opens with one call for each hop of its path, and
what they hold in the end opens with the quote of a column. So the calls
of a text are those the compiler wrote (`unwraps_iff`), whatever the user
typed as attribute and values: no text between quotes is where a call
could be. Two conditions with one query therefore agree on the way to
their source and on the predicate that is asked there
(`Condition.sharesScope_of_query_eq`).
-/

namespace LayerQuery

open Criteria

namespace Relations

/-! ## Taking calls off -/

/-- The text opens as a call does. -/
def OpensCall (text : String) : Prop :=
  "RELATED_LAYER(".toList <+: text.toList

theorem opensCall_hopCall (hop : FeatureTypeId × FeatureTypeId) (inner : String) :
    OpensCall (hopCall hop inner) := by
  unfold OpensCall
  rw [toList_hopCall]
  exact List.prefix_append _ _

/-- The text is a nest of calls, for these hops from the outside in, around
a text that opens no further call. -/
inductive Unwraps : String → List (FeatureTypeId × FeatureTypeId) → String → Prop
  | leaf {text : String} (h : ¬ OpensCall text) : Unwraps text [] text
  | call (hop : FeatureTypeId × FeatureTypeId) {inner leaf : String}
      {rest : List (FeatureTypeId × FeatureTypeId)} (h : Unwraps inner rest leaf) :
      Unwraps (hopCall hop inner) (hop :: rest) leaf

/-- **Calls come off in one way.** At each step the text either opens a
call, which then determines its hop and what it holds, or it opens none. -/
theorem Unwraps.unique {text leaf leaf' : String} {hs hs' : List (FeatureTypeId × FeatureTypeId)}
    (h : Unwraps text hs leaf) (h' : Unwraps text hs' leaf') : hs = hs' ∧ leaf = leaf' := by
  induction h generalizing hs' with
  | leaf hnone =>
    cases h' with
    | leaf => exact ⟨rfl, rfl⟩
    | call hop => exact absurd (opensCall_hopCall hop _) hnone
  | call hop hinner ih =>
    generalize htext : hopCall hop _ = text at h'
    cases h' with
    | leaf hnone =>
      rw [← htext] at hnone
      exact absurd (opensCall_hopCall hop _) hnone
    | call hop' hinner' =>
      obtain ⟨hparent, hchild, rfl⟩ := hopCall_injective htext
      obtain ⟨rfl, rfl⟩ := ih hinner'
      exact ⟨by rw [Prod.ext hparent hchild], rfl⟩

theorem unwraps_nested {leaf : String} (h : ¬ OpensCall leaf) (path : List FeatureTypeId) :
    Unwraps (nested path leaf) (hops path) leaf := by
  unfold nested
  induction hops path with
  | nil => exact .leaf h
  | cons hop rest ih => exact .call hop ih

/-- What is nested around a text that opens no call comes off again, and
nothing else does. -/
theorem unwraps_nested_iff {leaf : String} (h : ¬ OpensCall leaf) (path : List FeatureTypeId)
    {hs : List (FeatureTypeId × FeatureTypeId)} {text : String} :
    Unwraps (nested path leaf) hs text ↔ hs = hops path ∧ text = leaf := by
  constructor
  · intro hother
    exact hother.unique (unwraps_nested h path)
  · rintro ⟨rfl, rfl⟩
    exact unwraps_nested h path

/-- A path with a hop is determined by its hops. -/
theorem path_eq_of_hops_eq {path path' : List FeatureTypeId} (hlength : 1 < path.length)
    (h : hops path = hops path') : path = path' := by
  have hne : path ≠ [] := by
    rintro rfl
    exact absurd hlength (by decide)
  have hne' : path' ≠ [] := by
    rintro rfl
    have hcount := congrArg List.length h
    simp only [hops, List.length_zip, List.length_tail, List.tail_nil, List.length_nil] at hcount
    omega
  have hnested : nested path "" = nested path' "" := by rw [nested, h, nested]
  exact nested_injective hne hne' (.inl hlength) hnested

end Relations

open Relations

namespace Criteria

/-- A predicate opens with the quote of its column, not with a call. -/
theorem Test.not_opensCall_of_sql_eq_ok {t : Test} {leaf : String} (h : t.sql = .ok leaf) :
    ¬ OpensCall leaf := by
  obtain ⟨p, -, rfl⟩ := eq_ok_of_map_eq_ok h
  rintro ⟨rest, hrest⟩
  have hchars : p.text.toList = p.chars := by rw [p.text_eq, String.toList_ofList]
  rw [hchars] at hrest
  exact absurd (List.cons.inj hrest).1 (by decide)

namespace Condition

/-- The hops from the outermost related type to the source. -/
def hopsTo (c : Condition) (source : FeatureTypeId) : List (FeatureTypeId × FeatureTypeId) :=
  hops (c.relatedTo.getD [] ++ [source])

/-- **A query is read in one way** as calls around a predicate: the calls
are the hops of the condition, and the predicate is that of its test. -/
theorem unwraps_iff {c : Condition} {q : String} (h : c.query = .ok q) :
    ∃ t leaf, c.test = .ok t ∧ t.sql = .ok leaf ∧
      ∀ hs text, Unwraps q hs text ↔ hs = c.hopsTo t.featureType ∧ text = leaf := by
  rw [Condition.query_eq] at h
  obtain ⟨t, ht, h⟩ := eq_ok_of_bind_eq_ok h
  obtain ⟨leaf, hleaf, rfl⟩ := eq_ok_of_map_eq_ok h
  exact ⟨t, leaf, ht, hleaf, fun hs text =>
    unwraps_nested_iff (Test.not_opensCall_of_sql_eq_ok hleaf) _⟩

/-- Two conditions ask from the same place: neither is on a related type,
or both are on the same source behind the same chain. -/
inductive SharesScope (c c' : Condition) : Prop where
  | plain (h : c.relatedTo.getD [] = []) (h' : c'.relatedTo.getD [] = [])
  | related (types : List FeatureTypeId) (source : FeatureTypeId) (hne : types ≠ [])
      (hrelated : c.relatedTo = some types) (hrelated' : c'.relatedTo = some types)
      (hsource : c.source = some source) (hsource' : c'.source = some source)

theorem relatedTo_eq_some {c : Condition} {types : List FeatureTypeId} (hne : types ≠ [])
    (h : c.relatedTo.getD [] = types) : c.relatedTo = some types := by
  cases hrelated : c.relatedTo with
  | none =>
    rw [hrelated] at h
    exact absurd h.symm hne
  | some types' =>
    rw [hrelated] at h
    rw [← h, Option.getD_some]

/-- Hops determine where a condition asks from. -/
theorem sharesScope_of_hops_eq {c c' : Condition} {source source' : FeatureTypeId}
    (hsource : c.source = some source) (hsource' : c'.source = some source')
    (h : c.hopsTo source = c'.hopsTo source') : SharesScope c c' := by
  have hcount := congrArg List.length h
  simp only [hopsTo, hops, List.length_zip, List.length_tail, List.length_append,
    List.length_singleton] at hcount
  by_cases hnil : c.relatedTo.getD [] = []
  · rw [hnil, List.length_nil] at hcount
    exact .plain hnil (List.length_eq_zero_iff.mp (by omega))
  · have hpos := List.length_pos_iff.mpr hnil
    have hlength : 1 < (c.relatedTo.getD [] ++ [source]).length := by
      rw [List.length_append, List.length_singleton]
      omega
    have hpath := path_eq_of_hops_eq hlength h
    obtain ⟨htypes, hlast⟩ := List.append_inj' hpath rfl
    obtain rfl := List.singleton_inj.mp hlast
    exact .related _ source hnil (relatedTo_eq_some hnil rfl) (relatedTo_eq_some hnil htypes.symm)
      hsource hsource'

/-- **One query, one scope and one predicate.** Two conditions that
compile to the same text are on the same source behind the same chain,
or are both on no related type, and their tests compile to the same
predicate; and in that text no calls can be read but those of the chain,
whatever attributes and values hold. -/
theorem sharesScope_of_query_eq {c c' : Condition} {q : String} (h : c.query = .ok q)
    (h' : c'.query = .ok q) :
    SharesScope c c' ∧ ∃ t t' leaf, c.test = .ok t ∧ c'.test = .ok t' ∧
      t.sql = .ok leaf ∧ t'.sql = .ok leaf ∧
      ∀ hs text, Unwraps q hs text ↔ hs = c.hopsTo t.featureType ∧ text = leaf := by
  obtain ⟨t, leaf, ht, hleaf, hreading⟩ := unwraps_iff h
  obtain ⟨t', leaf', ht', hleaf', hreading'⟩ := unwraps_iff h'
  -- the one reading of the text is that of either condition
  obtain ⟨hhops, rfl⟩ := (hreading' _ _).mp ((hreading _ _).mpr ⟨rfl, rfl⟩)
  exact ⟨sharesScope_of_hops_eq (source_eq_of_test_eq_ok ht) (source_eq_of_test_eq_ok ht') hhops,
    t, t', leaf, ht, ht', hleaf, hleaf', hreading⟩

/-- A condition whose attribute and value look like calls, behind a chain
that goes back and forth. -/
def calling (id operator : String) : Condition where
  id := id
  source := some 7
  attributeName := some "RELATED_LAYER(7, -1, \"x\""
  attributeType := some .string
  operator := some operator
  values := some [some (.text "RELATED_LAYER(-1, 7, y)"), none]
  relatedTo := some [-1, 7, -1]

theorem calling_sharesScope :
    (calling "a" "=").query = (calling "b" " EQ ").query ∧
      SharesScope (calling "a" "=") (calling "b" " EQ ") ∧
      ∃ t t' leaf, (calling "a" "=").test = .ok t ∧ (calling "b" " EQ ").test = .ok t' ∧
        t.sql = .ok leaf ∧ t'.sql = .ok leaf ∧
        ∀ hs text, Unwraps ("RELATED_LAYER(-1, 7, RELATED_LAYER(7, -1, RELATED_LAYER(-1, 7, " ++
            "\"RELATED_LAYER(7, -1, \"\"x\"\"\" = 'RELATED_LAYER(-1, 7, y)')))") hs text ↔
          hs = (calling "a" "=").hopsTo t.featureType ∧ text = leaf :=
  ⟨by decide +kernel, sharesScope_of_query_eq (by decide +kernel) (by decide +kernel)⟩

end Condition

end Criteria

end LayerQuery
