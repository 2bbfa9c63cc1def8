import LayerQuery.Proofs.Listing
import Mathlib.Data.List.Induction
import Mathlib.Data.List.Nodup
/-!
# An outline is read by its indentation

Which entry of an outline lies inside which is not written down: it is
seen from the depths alone, the entry above being the nearest one before
that is one level higher. This file shows that what is seen is what is
meant (`isOutline_sources`). The entry above has the chain of the entry,
less its own feature type, and no entry is the only one inside another.

Positions are in the order of words, so all that stands between a position
and one right inside it lies inside it too (`isPrefix_of_lt_append`), and
is deeper. That is why nothing comes between that could be taken for the
entry above. The rest is that the positions of an outline are closed: with
a position they have the one around it and a second one beside it, since
places are only entered where there are two links.
-/

namespace LayerQuery

namespace Relations

/-! ## Depths in a list of entries -/

/-- How deep an entry lies, by its chain. The layer's own entry has no
depth. -/
def Entry.depth? (e : Entry) : Option Nat :=
  e.relatedTo.map List.length

/-- The depth of the entry at a place of the list. -/
def depthAt? (entries : List Entry) (i : Nat) : Option Nat :=
  entries[i]?.bind Entry.depth?

/-- Of the entries before the one at `i`, which has depth `d + 1`, the one
at `j` is the nearest that has depth `d`. -/
structure IsParentAt (entries : List Entry) (d j i : Nat) : Prop where
  before : j < i
  parentDepth : depthAt? entries j = some d
  childDepth : depthAt? entries i = some (d + 1)
  nearest : ∀ k, j < k → k < i → depthAt? entries k ≠ some d

theorem IsParentAt.unique {entries : List Entry} {d j j' i : Nat} (h : IsParentAt entries d j i)
    (h' : IsParentAt entries d j' i) : j = j' := by
  rcases Nat.lt_trichotomy j j' with hlt | heq | hlt
  · exact absurd h'.parentDepth (h.nearest j' hlt h'.before)
  · exact heq
  · exact absurd h.parentDepth (h'.nearest j hlt h.before)

/-- The list can be read as an outline below a root. -/
structure IsOutline (root : FeatureTypeId) (entries : List Entry) : Prop where
  /-- No feature type comes twice in a chain, and the root never does. -/
  chains : ∀ e ∈ entries, ∀ types, e.relatedTo = some types → types.Nodup ∧ root ∉ types
  /-- The first entry and no other is without depth. -/
  layer : ∀ i < entries.length, depthAt? entries i = none ↔ i = 0
  /-- The one behind it is at the top. -/
  top : ∀ d, depthAt? entries 1 = some d → d = 0
  /-- From one entry to the next it goes down by one level at most. -/
  deepens : ∀ i d d', depthAt? entries i = some d → depthAt? entries (i + 1) = some d' → d' ≤ d + 1
  /-- The nearest entry before that is one level higher is the one that
  the chain leads through last. -/
  parent : ∀ i e d, entries[i]? = some e → e.depth? = some (d + 1) →
    ∃ j p types, IsParentAt entries d j i ∧ entries[j]? = some p ∧ p.relatedTo = some types ∧
      e.relatedTo = some (types ++ [p.featureType])
  /-- No entry is alone inside another. -/
  siblings : ∀ d j i, IsParentAt entries d j i → ∃ i', i' ≠ i ∧ IsParentAt entries d j i'

/-! ## Positions in their order -/

/-- What comes behind a position and before one right inside it lies
inside it. -/
theorem isPrefix_of_lt_append {front position : List Nat} {n : Nat} (hle : ¬ position < front)
    (hlt : position < front ++ [n]) : front <+: position := by
  induction front generalizing position with
  | nil => exact List.nil_prefix
  | cons a front ih =>
    cases position with
    | nil => exact absurd (List.nil_lt_cons a front) hle
    | cons b rest =>
      rw [List.cons_lt_cons_iff, not_or] at hle
      rw [List.cons_append, List.cons_lt_cons_iff] at hlt
      rcases hlt with hba | ⟨rfl, hlt⟩
      · exact absurd hba hle.1
      · exact List.cons_prefix_cons.mpr ⟨rfl, ih (fun h => hle.2 ⟨rfl, h⟩) hlt⟩

theorem lt_append_singleton (front : List Nat) (n : Nat) : front < front ++ [n] := by
  induction front with
  | nil => exact List.nil_lt_cons n []
  | cons a front ih => exact List.cons_lt_cons_iff.mpr (.inr ⟨rfl, ih⟩)

section Ascending

variable {positions : List (List Nat)} {front position : List Nat} {n i j k : Nat}

theorem lt_of_getElem? (hsorted : positions.Pairwise (· < ·)) (hi : positions[i]? = some front)
    (hj : positions[j]? = some position) (h : i < j) : front < position := by
  obtain ⟨hilt, rfl⟩ := List.getElem?_eq_some_iff.mp hi
  obtain ⟨hjlt, rfl⟩ := List.getElem?_eq_some_iff.mp hj
  exact List.pairwise_iff_getElem.mp hsorted i j hilt hjlt h

theorem lt_of_getElem?_lt (hsorted : positions.Pairwise (· < ·))
    (hi : positions[i]? = some front) (hj : positions[j]? = some position)
    (h : front < position) : i < j := by
  rcases Nat.lt_trichotomy i j with hlt | rfl | hlt
  · exact hlt
  · obtain rfl := Option.some.inj (hi.symm.trans hj)
    exact absurd h (List.lt_irrefl front)
  · exact absurd h (List.lt_asymm (lt_of_getElem? hsorted hj hi hlt))

theorem eq_of_getElem?_eq (hsorted : positions.Pairwise (· < ·))
    (hi : positions[i]? = some front) (hj : positions[j]? = some front) : i = j := by
  have hnodup : positions.Nodup := by
    refine hsorted.imp ?_
    rintro front _ hlt rfl
    exact List.lt_irrefl front hlt
  obtain ⟨hilt, -⟩ := List.getElem?_eq_some_iff.mp hi
  exact (List.getElem?_inj hilt hnodup).mp (hi.trans hj.symm)

/-- **Between a position and one right inside it all is deeper.** -/
theorem length_lt_of_between (hsorted : positions.Pairwise (· < ·))
    (hj : positions[j]? = some front) (hi : positions[i]? = some (front ++ [n]))
    (hk : positions[k]? = some position) (hjk : j < k) (hki : k < i) :
    front.length < position.length := by
  have hafter := lt_of_getElem? hsorted hj hk hjk
  have hbefore := lt_of_getElem? hsorted hk hi hki
  have hinside := isPrefix_of_lt_append (List.lt_asymm hafter) hbefore
  refine Nat.lt_of_le_of_ne hinside.length_le fun hlength => ?_
  rw [hinside.eq_of_length hlength] at hafter
  exact List.lt_irrefl position hafter

end Ascending

/-! ## Places at positions -/

/-- The links at hand at the end of a way. -/
def linksUnder (forest way : List Link) : List Link :=
  (way.getLast?.map Link.links).getD forest

theorem linksUnder_append_singleton (forest way : List Link) (l : Link) :
    linksUnder forest (way ++ [l]) = l.links := by
  simp [linksUnder]

theorem linksUnder_cons (forest : List Link) (l : Link) (way : List Link) :
    linksUnder forest (l :: way) = linksUnder l.links way := by
  rcases List.eq_nil_or_concat' way with rfl | ⟨front, last, rfl⟩
  · rfl
  · rw [← List.cons_append, linksUnder_append_singleton, linksUnder_append_singleton]

/-- A position one step further leads through one link more. -/
theorem wayTo?_append_singleton {forest way : List Link} {front : List Nat} {n : Nat} :
    wayTo? forest (front ++ [n]) = some way ↔
      ∃ above l, wayTo? forest front = some above ∧ (linksUnder forest above)[n]? = some l ∧
        way = above ++ [l] := by
  induction front generalizing forest way with
  | nil =>
    rw [List.nil_append, wayTo?_cons_eq_some_iff]
    constructor
    · rintro ⟨l, below, hl, hbelow, rfl⟩
      obtain rfl := Option.some.inj hbelow
      exact ⟨[], l, rfl, hl, rfl⟩
    · rintro ⟨above, l, habove, hl, rfl⟩
      obtain rfl := Option.some.inj habove
      exact ⟨l, [], hl, rfl, rfl⟩
  | cons a front ih =>
    rw [List.cons_append, wayTo?_cons_eq_some_iff]
    constructor
    · rintro ⟨first, below, hfirst, hbelow, rfl⟩
      obtain ⟨above, l, habove, hl, rfl⟩ := ih.mp hbelow
      refine ⟨first :: above, l, wayTo?_cons_eq_some_iff.mpr ⟨first, above, hfirst, habove, rfl⟩, ?_,
        rfl⟩
      rw [linksUnder_cons]
      exact hl
    · rintro ⟨above, l, habove, hl, rfl⟩
      obtain ⟨first, rest, hfirst, hrest, rfl⟩ := wayTo?_cons_eq_some_iff.mp habove
      rw [linksUnder_cons] at hl
      exact ⟨first, rest ++ [l], hfirst, ih.mpr ⟨rest, l, hrest, hl, rfl⟩, rfl⟩

theorem length_of_wayTo? {forest way : List Link} {position : List Nat}
    (h : wayTo? forest position = some way) : way.length = position.length := by
  induction position generalizing forest way with
  | nil =>
    obtain rfl := Option.some.inj h
    rfl
  | cons i position ih =>
    obtain ⟨l, below, -, hbelow, rfl⟩ := wayTo?_cons_eq_some_iff.mp h
    rw [List.length_cons, List.length_cons, ih hbelow]

namespace Place

variable {forest : List Link} {p p' : Place} {root : FeatureTypeId} {front position : List Nat}
variable {n : Nat}

theorem isAt_append_singleton_iff :
    p.IsAt forest (front ++ [n]) ↔
      wayTo? forest front = some p.above ∧ (linksUnder forest p.above)[n]? = some p.link := by
  rw [IsAt, wayTo?_append_singleton, way]
  constructor
  · rintro ⟨above, l, habove, hl, heq⟩
    obtain ⟨rfl, hlink⟩ := List.append_inj' heq rfl
    obtain rfl := List.singleton_inj.mp hlink
    exact ⟨habove, hl⟩
  · rintro ⟨habove, hl⟩
    exact ⟨p.above, p.link, habove, hl, rfl⟩

/-- A place is at the end of some step. -/
theorem IsAt.exists_append_singleton (h : p.IsAt forest position) :
    ∃ front n, position = front ++ [n] ∧ front.length = p.above.length := by
  have hlength := length_of_wayTo? h
  rw [way, List.length_append, List.length_singleton] at hlength
  rcases List.eq_nil_or_concat' position with rfl | ⟨front, n, rfl⟩
  · cases hlength
  · rw [List.length_append, List.length_singleton] at hlength
    exact ⟨front, n, rfl, by omega⟩

theorem IsAt.unique (h : p.IsAt forest position) (h' : p'.IsAt forest position) : p = p' := by
  obtain ⟨habove, hlink⟩ := List.append_inj' (Option.some.inj (h.symm.trans h')) rfl
  obtain ⟨above, link⟩ := p
  obtain ⟨above', link'⟩ := p'
  obtain rfl : above = above' := habove
  obtain rfl : link = link' := List.singleton_inj.mp hlink
  rfl

/-- The way to a listed place meets no feature type twice, nor the
root's. -/
theorem IsListed.nodup (h : p.IsListed root) :
    (p.above.map Link.featureType).Nodup ∧ root ∉ p.above.map Link.featureType := by
  obtain ⟨above, link⟩ := p
  change ∀ a : Place, a.way <+: above → a.IsExpandable root at h
  change (above.map Link.featureType).Nodup ∧ root ∉ above.map Link.featureType
  induction above using List.reverseRecOn with
  | nil => exact ⟨List.nodup_nil, List.not_mem_nil⟩
  | append_singleton front l ih =>
    obtain ⟨hnodup, hroot⟩ := ih fun a ha => h a (ha.trans (List.prefix_append front [l]))
    have hl : (⟨front, l⟩ : Place).IsExpandable root := h ⟨front, l⟩ (List.prefix_refl _)
    have hnew : l.featureType ∉ front.map Link.featureType := by
      rintro hmem
      obtain ⟨l', hl', heq⟩ := List.mem_map.mp hmem
      exact hl.ne_above l' hl' heq.symm
    rw [List.map_append, List.map_singleton]
    refine ⟨List.nodup_append_comm.mp (List.nodup_cons.mpr ⟨hnew, hnodup⟩), ?_⟩
    rw [List.mem_append, List.mem_singleton]
    rintro (hmem | heq)
    · exact hroot hmem
    · exact hl.ne_root heq.symm

end Place

/-! ## The positions of an outline are closed -/

section Closed

variable {root : FeatureTypeId} {forest : List Link} {p : Place} {front : List Nat} {n m : Nat}

/-- A listed place inside another: the other one is listed and entered. -/
theorem exists_around (hat : p.IsAt forest (front ++ [m] ++ [n])) (hlisted : p.IsListed root) :
    ∃ around : Place, around.IsAt forest (front ++ [m]) ∧ around.IsListed root ∧
      around.IsExpandable root ∧ p.above = around.way ∧ around.link.links[n]? = some p.link := by
  obtain ⟨hway, hlink⟩ := Place.isAt_append_singleton_iff.mp hat
  obtain ⟨above, l, -, -, habove⟩ := wayTo?_append_singleton.mp hway
  have hprefix : (⟨above, l⟩ : Place).way <+: p.above := by
    rw [habove]
    exact List.prefix_refl _
  rw [habove, linksUnder_append_singleton] at hlink
  refine ⟨⟨above, l⟩, ?_, fun a ha => ?_, hlisted _ hprefix, habove, hlink⟩
  · rw [Place.IsAt, hway, habove]
    rfl
  · refine hlisted a (ha.trans ?_)
    rw [habove]
    exact List.prefix_append above [l]

/-- **With a position inside another the outline has a second one
there.** -/
theorem exists_beside (hat : p.IsAt forest (front ++ [m] ++ [n])) (hlisted : p.IsListed root) :
    ∃ n' ≠ n, ∃ p' : Place, p'.IsAt forest (front ++ [m] ++ [n']) ∧ p'.IsListed root := by
  obtain ⟨around, haround, -, hexpandable, habove, -⟩ := exists_around hat hlisted
  have htwo := hexpandable.two_le
  obtain ⟨n', hne, hn'⟩ : ∃ n', n' ≠ n ∧ n' < around.link.links.length := by
    by_cases hzero : n = 0
    · exact ⟨1, by omega, by omega⟩
    · exact ⟨0, by omega, by omega⟩
  -- what is listed depends on the links above alone
  refine ⟨n', hne, ⟨p.above, around.link.links[n']⟩, ?_, hlisted⟩
  refine Place.isAt_append_singleton_iff.mpr ⟨?_, ?_⟩
  · rw [habove]
    exact haround
  · rw [habove, Place.way, linksUnder_append_singleton]
    exact List.getElem?_eq_getElem hn'

end Closed

/-! ## The entries of an outline -/

section Entries

variable {labelOf : String → Option String} {layer : Layer} {metadata : Metadata}
variable {e : Entry} {front : List Nat} {i n m d : Nat}

/-- The positions that the outline of a layer lists. -/
def Metadata.positions (metadata : Metadata) (layer : Layer) : List (List Nat) :=
  positionsAll layer.featureType [] 0 metadata.links

theorem Metadata.ascending_positions (metadata : Metadata) (layer : Layer) :
    (metadata.positions layer).Pairwise (· < ·) :=
  pairwise_positionsAll fun l _ => pairwise_positions l []

theorem Metadata.mem_positions {position : List Nat} :
    position ∈ metadata.positions layer ↔
      ∃ p : Place, p.IsAt metadata.links position ∧ p.IsListed layer.featureType :=
  mem_positionsAll_zero_iff

theorem Metadata.forall₂_positions_places (metadata : Metadata) (layer : Layer) :
    List.Forall₂ (fun position p => p.IsAt metadata.links position) (metadata.positions layer)
      (metadata.places layer) := by
  refine (forall₂_positionsAll fun l _ => forall₂_positions l []).imp ?_
  rintro position p ⟨i, rest, way, rfl, hway, hp⟩
  rw [Place.IsAt, hp, List.nil_append, Nat.zero_add]
  exact hway

/-- An entry is as deep as there are links above its place. -/
theorem Place.depth?_entry (labelOf : String → Option String) (p : Place) :
    (p.entry labelOf).depth? = some p.above.length :=
  congrArg some (List.length_map Link.featureType)

/-- **Behind the entry of the layer there is one entry for each
position.** -/
theorem getElem?_sources_succ_eq_some_iff :
    (sources labelOf layer (some metadata))[i + 1]? = some e ↔
      ∃ (position : List Nat) (p : Place), (metadata.positions layer)[i]? = some position ∧
        p.IsAt metadata.links position ∧ p.IsListed layer.featureType ∧ e = p.entry labelOf := by
  have hforall := metadata.forall₂_positions_places layer
  have hlisted : ∀ {position : List Nat} {p : Place}, (metadata.positions layer)[i]? = some position →
      p.IsAt metadata.links position → p.IsListed layer.featureType := by
    intro position p hposition hp
    obtain ⟨p', hp', hlisted⟩ := Metadata.mem_positions.mp (List.mem_of_getElem? hposition)
    rw [hp.unique hp']
    exact hlisted
  rw [sources_eq, List.getElem?_cons_succ, List.getElem?_map, Option.map_eq_some_iff]
  constructor
  · rintro ⟨p, hp, rfl⟩
    obtain ⟨hi, rfl⟩ := List.getElem?_eq_some_iff.mp hp
    have hi' : i < (metadata.positions layer).length := by rw [hforall.length_eq]; exact hi
    have hposition := List.getElem?_eq_getElem hi'
    have hat := hforall.get hi' hi
    exact ⟨_, _, hposition, hat, hlisted hposition hat, rfl⟩
  · rintro ⟨position, p, hposition, hp, -, rfl⟩
    obtain ⟨hi, rfl⟩ := List.getElem?_eq_some_iff.mp hposition
    have hi' : i < (metadata.places layer).length := by rw [← hforall.length_eq]; exact hi
    exact ⟨_, List.getElem?_eq_getElem hi', congrArg _ (Place.IsAt.unique (hforall.get hi hi') hp)⟩

/-- The depth of an entry is the number of steps around its position. -/
theorem depthAt?_sources_succ_eq_some_iff :
    depthAt? (sources labelOf layer (some metadata)) (i + 1) = some d ↔
      ∃ front n, (metadata.positions layer)[i]? = some (front ++ [n]) ∧ front.length = d := by
  rw [depthAt?, Option.bind_eq_some_iff]
  constructor
  · rintro ⟨e, he, hdepth⟩
    obtain ⟨position, p, hposition, hp, -, rfl⟩ := getElem?_sources_succ_eq_some_iff.mp he
    obtain ⟨front, n, rfl, hlength⟩ := hp.exists_append_singleton
    refine ⟨front, n, hposition, ?_⟩
    rw [hlength]
    exact Option.some.inj ((p.depth?_entry labelOf).symm.trans hdepth)
  · rintro ⟨front, n, hposition, rfl⟩
    obtain ⟨p, hp, hlisted⟩ := Metadata.mem_positions.mp (List.mem_of_getElem? hposition)
    refine ⟨p.entry labelOf,
      getElem?_sources_succ_eq_some_iff.mpr ⟨_, p, hposition, hp, hlisted, rfl⟩, ?_⟩
    obtain ⟨front', n', heq, hlength⟩ := hp.exists_append_singleton
    obtain ⟨rfl, -⟩ := List.append_inj' heq rfl
    rw [hlength]
    exact p.depth?_entry labelOf

/-- The chain of an entry meets no feature type twice. -/
theorem nodup_of_mem_sources {types : List FeatureTypeId}
    (he : e ∈ sources labelOf layer (some metadata)) (htypes : e.relatedTo = some types) :
    types.Nodup ∧ layer.featureType ∉ types := by
  obtain ⟨i, hi⟩ := List.mem_iff_getElem?.mp he
  cases i with
  | zero =>
    obtain rfl := Option.some.inj hi
    cases htypes
  | succ i =>
    obtain ⟨position, p, -, -, hlisted, rfl⟩ := getElem?_sources_succ_eq_some_iff.mp hi
    obtain rfl := Option.some.inj htypes
    exact hlisted.nodup

/-- Only the entry of the layer is without depth. -/
theorem depthAt?_sources_eq_none_iff (hi : i < (sources labelOf layer (some metadata)).length) :
    depthAt? (sources labelOf layer (some metadata)) i = none ↔ i = 0 := by
  cases i with
  | zero => exact iff_of_true rfl rfl
  | succ i =>
    obtain ⟨position, p, -, -, -, hentry⟩ :=
      getElem?_sources_succ_eq_some_iff.mp (List.getElem?_eq_getElem hi)
    refine iff_of_false ?_ (Nat.succ_ne_zero i)
    rw [depthAt?, List.getElem?_eq_getElem hi, hentry]
    exact nofun

/-- **The nearest entry that is one level higher stands for the position
around.** -/
theorem exists_isParentAt (labelOf : String → Option String)
    (hi : (metadata.positions layer)[i]? = some (front ++ [m] ++ [n])) :
    ∃ j, (metadata.positions layer)[j]? = some (front ++ [m]) ∧
      IsParentAt (sources labelOf layer (some metadata)) front.length (j + 1) (i + 1) := by
  have hsorted := metadata.ascending_positions layer
  obtain ⟨p, hp, hlisted⟩ := Metadata.mem_positions.mp (List.mem_of_getElem? hi)
  obtain ⟨around, haround, hlistedAround, -⟩ := exists_around hp hlisted
  obtain ⟨j, hj⟩ := List.mem_iff_getElem?.mp (Metadata.mem_positions.mpr
    ⟨around, haround, hlistedAround⟩)
  have hbefore : j < i := lt_of_getElem?_lt hsorted hj hi (lt_append_singleton _ n)
  refine ⟨j, hj, by omega, depthAt?_sources_succ_eq_some_iff.mpr ⟨front, m, hj, rfl⟩,
    depthAt?_sources_succ_eq_some_iff.mpr ⟨front ++ [m], n, hi, by simp⟩, ?_⟩
  rintro (- | k) hjk hki hdepth
  · omega
  · obtain ⟨front', n', hk, hlength⟩ := depthAt?_sources_succ_eq_some_iff.mp hdepth
    have hdeeper := length_lt_of_between hsorted hj hi hk (by omega) (by omega)
    simp only [List.length_append, List.length_singleton] at hdeeper
    omega

theorem deepens_sources {d' : Nat}
    (hd : depthAt? (sources labelOf layer (some metadata)) i = some d)
    (hd' : depthAt? (sources labelOf layer (some metadata)) (i + 1) = some d') : d' ≤ d + 1 := by
  obtain ⟨front', n', hnext, rfl⟩ := depthAt?_sources_succ_eq_some_iff.mp hd'
  rcases List.eq_nil_or_concat' front' with rfl | ⟨front, m, rfl⟩
  · exact Nat.zero_le _
  · obtain ⟨j, hj, hparent⟩ := exists_isParentAt labelOf hnext
    cases i with
    | zero => cases hd
    | succ i =>
      obtain ⟨above, n, hi, rfl⟩ := depthAt?_sources_succ_eq_some_iff.mp hd
      have hbefore := hparent.before
      rcases Nat.eq_or_lt_of_le (show j ≤ i by omega) with rfl | hlt
      · -- the next entry lies right inside this one
        rw [Option.some.inj (hj.symm.trans hi)]
        simp
      · have hdeeper := length_lt_of_between (metadata.ascending_positions layer) hj hnext hi hlt
          (Nat.lt_succ_self i)
        simp only [List.length_append, List.length_singleton] at hdeeper ⊢
        omega

theorem exists_parent_of_depth? (hi : (sources labelOf layer (some metadata))[i]? = some e)
    (hdepth : e.depth? = some (d + 1)) :
    ∃ j p types, IsParentAt (sources labelOf layer (some metadata)) d j i ∧
      (sources labelOf layer (some metadata))[j]? = some p ∧ p.relatedTo = some types ∧
      e.relatedTo = some (types ++ [p.featureType]) := by
  cases i with
  | zero =>
    obtain rfl := Option.some.inj hi
    cases hdepth
  | succ i =>
    obtain ⟨position, p, hposition, hp, hlisted, rfl⟩ := getElem?_sources_succ_eq_some_iff.mp hi
    obtain ⟨around', n, rfl, hlength⟩ := hp.exists_append_singleton
    have hdeep : p.above.length = d + 1 :=
      Option.some.inj ((p.depth?_entry labelOf).symm.trans hdepth)
    rcases List.eq_nil_or_concat' around' with rfl | ⟨front, m, rfl⟩
    · rw [hdeep] at hlength
      cases hlength
    · obtain ⟨around, haround, hlistedAround, -, habove, -⟩ := exists_around hp hlisted
      obtain ⟨j, hj, hparent⟩ := exists_isParentAt labelOf hposition
      obtain rfl : front.length = d := by
        rw [hdeep, List.length_append, List.length_singleton] at hlength
        omega
      refine ⟨j + 1, around.entry labelOf, around.above.map Link.featureType, hparent,
        getElem?_sources_succ_eq_some_iff.mpr ⟨_, around, hj, haround, hlistedAround, rfl⟩, rfl, ?_⟩
      rw [Place.entry, habove, Place.way, List.map_append, List.map_singleton]
      rfl

theorem eq_zero_of_depthAt?_sources_one
    (hd : depthAt? (sources labelOf layer (some metadata)) 1 = some d) : d = 0 := by
  cases d with
  | zero => rfl
  | succ d =>
    -- an entry one level higher would have to be the layer's own
    obtain ⟨e, he, hdepth⟩ := Option.bind_eq_some_iff.mp hd
    obtain ⟨j, -, -, hparent, -⟩ := exists_parent_of_depth? he hdepth
    obtain rfl : j = 0 := Nat.lt_one_iff.mp hparent.before
    cases hparent.parentDepth

theorem exists_sibling {j : Nat} (h : IsParentAt (sources labelOf layer (some metadata)) d j i) :
    ∃ i', i' ≠ i ∧ IsParentAt (sources labelOf layer (some metadata)) d j i' := by
  have hsorted := metadata.ascending_positions layer
  cases i with
  | zero => exact absurd h.before (Nat.not_lt_zero j)
  | succ i =>
    obtain ⟨around, n, hi, hlength⟩ := depthAt?_sources_succ_eq_some_iff.mp h.childDepth
    rcases List.eq_nil_or_concat' around with rfl | ⟨front, m, rfl⟩
    · cases hlength
    · obtain rfl : front.length = d := by
        rw [List.length_append, List.length_singleton] at hlength
        omega
      obtain ⟨p, hp, hlisted⟩ := Metadata.mem_positions.mp (List.mem_of_getElem? hi)
      obtain ⟨n', hne, p', hp', hlisted'⟩ := exists_beside hp hlisted
      obtain ⟨i', hi'⟩ := List.mem_iff_getElem?.mp (Metadata.mem_positions.mpr
        ⟨p', hp', hlisted'⟩)
      -- both lie inside the same entry, the one for the position around them
      obtain ⟨k, hk, hparent⟩ := exists_isParentAt labelOf hi
      obtain ⟨k', hk', hparent'⟩ := exists_isParentAt labelOf hi'
      obtain rfl := eq_of_getElem?_eq hsorted hk hk'
      obtain rfl := h.unique hparent
      refine ⟨i' + 1, fun heq => ?_, hparent'⟩
      obtain rfl : i' = i := Nat.succ.inj heq
      have hsame := List.append_cancel_left (Option.some.inj (hi'.symm.trans hi))
      exact hne (List.singleton_inj.mp hsame)

end Entries

/-- **The sources for a layer are an outline.** Every chain is free of
repetitions and of the selected feature type. The first entry behind that
of the layer is at the top, no entry is more than one level deeper than
the one before it, and of every entry that is not at the top the nearest
one before that is a level higher has the chain that leads to it. Where
there is an entry inside another, there are two. -/
theorem isOutline_sources (labelOf : String → Option String) (layer : Layer)
    (metadata : Option Metadata) :
    IsOutline layer.featureType (sources labelOf layer metadata) := by
  cases metadata with
  | none =>
    exact ⟨nofun, nofun, nofun, nofun, nofun, fun d j i h => by cases h.childDepth⟩
  | some metadata =>
    exact ⟨fun e he types => nodup_of_mem_sources he, fun i => depthAt?_sources_eq_none_iff,
      fun d => eq_zero_of_depthAt?_sources_one, fun i d d' => deepens_sources,
      fun i e d => exists_parent_of_depth?, fun d j i => exists_sibling⟩

example : (sources (fun _ => none) ⟨1, "Trees"⟩ (some deepMetadata)).map Entry.depth? =
    [none, some 0, some 1, some 1, some 2, some 2] := by
  decide

end Relations

end LayerQuery
