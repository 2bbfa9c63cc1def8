import LayerQuery.Proofs.Places
import Mathlib.Data.List.Forall2
/-!
# What an outline lists

The outline of a layer, said without the recursion that makes it. A
position in a forest is a list of numbers, each of which picks one of the
links at hand; positions in the order of words are the links in
pre-order, a link before what lies inside it and siblings in their order.
A place is expandable by what it is and what lies above it, and it is
listed when every place above it is expandable.

The outline is the entry of the layer and then one entry for each
position of a listed place, in the order of positions
(`exists_positions_of_sources`). An ascending list of positions is
determined by its members, so nothing else is left open.
-/

namespace LayerQuery

namespace Relations

/-! ## Positions in a forest -/

/-- The links that a position leads through, its own link the last. -/
def wayTo? : List Link → List Nat → Option (List Link)
  | _, [] => some []
  | forest, i :: position =>
    (forest[i]?).bind fun l => (wayTo? l.links position).map (l :: ·)

theorem wayTo?_cons_eq_some_iff {forest way : List Link} {i : Nat} {position : List Nat} :
    wayTo? forest (i :: position) = some way ↔
      ∃ l below, forest[i]? = some l ∧ wayTo? l.links position = some below ∧ way = l :: below := by
  simp only [wayTo?, Option.bind_eq_some_iff, Option.map_eq_some_iff]
  constructor
  · rintro ⟨l, hl, below, hbelow, rfl⟩
    exact ⟨l, below, hl, hbelow, rfl⟩
  · rintro ⟨l, below, hl, hbelow, rfl⟩
    exact ⟨l, hl, below, hbelow, rfl⟩

namespace Place

/-- The place is at a position of a forest. -/
def IsAt (p : Place) (forest : List Link) (position : List Nat) : Prop :=
  wayTo? forest position = some p.way

/-- What lies inside a place is listed as well: there is more than one
link, and the feature type is neither the root's nor that of a link
above. -/
structure IsExpandable (root : FeatureTypeId) (p : Place) : Prop where
  two_le : 2 ≤ p.link.links.length
  ne_root : p.link.featureType ≠ root
  ne_above : ∀ l ∈ p.above, p.link.featureType ≠ l.featureType

/-- Every place above is expandable. -/
def IsListed (root : FeatureTypeId) (p : Place) : Prop :=
  ∀ a : Place, a.way <+: p.above → a.IsExpandable root

/-- The entry shows a place: its feature type, its label behind four
dashes for each link above and a space, and the feature types of the
links above. -/
structure IsShownBy (labelOf : String → Option String) (p : Place) (e : Entry) : Prop where
  featureType : e.featureType = p.link.featureType
  label : e.label.toList =
    (if p.above = [] then [] else List.replicate (4 * p.above.length) '-' ++ [' ']) ++
      ((labelOf p.link.name).getD p.link.name).toList
  relatedTo : e.relatedTo = some (p.above.map Link.featureType)

theorem isShownBy_entry (labelOf : String → Option String) (p : Place) :
    p.IsShownBy labelOf (p.entry labelOf) := by
  refine ⟨rfl, ?_, rfl⟩
  rw [entry, String.toList_append, indent]
  by_cases habove : p.above = []
  · rw [if_pos (List.length_eq_zero_iff.mpr habove), if_pos habove]
    rfl
  · rw [if_neg (fun hlength => habove (List.length_eq_zero_iff.mp hlength)), if_neg habove,
      String.toList_ofList]

/-- The test that the outline makes is for expandable places. -/
theorem isExpanded_iff (root : FeatureTypeId) (p : Place) :
    p.link.isExpanded root (p.above.map Link.featureType) = true ↔ p.IsExpandable root := by
  simp only [Link.isExpanded, Bool.and_eq_true, decide_eq_true_eq, Bool.not_eq_true',
    List.contains_eq_mem, decide_eq_false_iff_not, List.mem_map, not_exists, not_and]
  constructor
  · rintro ⟨⟨htwo, hroot⟩, habove⟩
    exact ⟨htwo, hroot, fun l hl heq => habove l hl heq.symm⟩
  · rintro ⟨htwo, hroot, habove⟩
    exact ⟨⟨htwo, hroot⟩, fun l hl heq => habove l hl heq.symm⟩

end Place

/-! ## The positions of an outline -/

mutual

/-- The positions of the places that are listed for a link below `above`,
counted from the link. -/
def Link.positions (root : FeatureTypeId) (above : List Link) : Link → List (List Nat)
  | ⟨featureType, name, links⟩ =>
    [] ::
      if Link.isExpanded root (above.map Link.featureType) ⟨featureType, name, links⟩ then
        positionsAll root (above ++ [⟨featureType, name, links⟩]) 0 links
      else []

/-- The positions of the places that are listed for links below `above`,
the first of which has the number `first`. -/
def positionsAll (root : FeatureTypeId) (above : List Link) (first : Nat) :
    List Link → List (List Nat)
  | [] => []
  | l :: ls =>
    (l.positions root above).map (first :: ·) ++ positionsAll root above (first + 1) ls

end

section Positions

variable {root : FeatureTypeId} {above : List Link} {first : Nat} {ls : List Link}

/-- A position starts with the number of the link that it goes through. -/
theorem mem_positionsAll_iff {position : List Nat} :
    position ∈ positionsAll root above first ls ↔
      ∃ i l rest, ls[i]? = some l ∧ rest ∈ l.positions root above ∧
        position = (first + i) :: rest := by
  induction ls generalizing first with
  | nil => simp [positionsAll]
  | cons l ls ih =>
    rw [positionsAll, List.mem_append, List.mem_map, ih]
    constructor
    · rintro (⟨rest, hrest, rfl⟩ | ⟨i, l', rest, hl', hrest, rfl⟩)
      · exact ⟨0, l, rest, rfl, hrest, rfl⟩
      · exact ⟨i + 1, l', rest, hl', hrest, by rw [Nat.add_assoc, Nat.add_comm 1]⟩
    · rintro ⟨i, l', rest, hl', hrest, rfl⟩
      cases i with
      | zero =>
        obtain rfl := Option.some.inj hl'
        exact .inl ⟨rest, hrest, rfl⟩
      | succ i => exact .inr ⟨i, l', rest, hl', hrest, by rw [Nat.add_assoc, Nat.add_comm 1]⟩

/-- Siblings come in their order, each with all that lies inside it. -/
theorem pairwise_positionsAll (h : ∀ l ∈ ls, (l.positions root above).Pairwise (· < ·)) :
    (positionsAll root above first ls).Pairwise (· < ·) := by
  induction ls generalizing first with
  | nil => exact List.Pairwise.nil
  | cons l ls ih =>
    obtain ⟨hl, hls⟩ := List.forall_mem_cons.mp h
    rw [positionsAll, List.pairwise_append]
    refine ⟨?_, ih hls, ?_⟩
    · rw [List.pairwise_map]
      exact hl.imp fun hlt => List.cons_lt_cons_iff.mpr (.inr ⟨rfl, hlt⟩)
    · intro position hposition position' hposition'
      obtain ⟨rest, -, rfl⟩ := List.mem_map.mp hposition
      obtain ⟨i, -, rest', -, -, rfl⟩ := mem_positionsAll_iff.mp hposition'
      exact List.cons_lt_cons_iff.mpr (.inl (by omega))

/-- **The positions of an outline ascend.** -/
theorem pairwise_positions (l : Link) (above : List Link) :
    (l.positions root above).Pairwise (· < ·) := by
  induction l using Link.inside_induction generalizing above with
  | mk featureType name links ih =>
    rw [Link.positions, List.pairwise_cons]
    split
    · refine ⟨fun position hposition => ?_, pairwise_positionsAll fun l hl => ih l hl _⟩
      obtain ⟨i, -, rest, -, -, rfl⟩ := mem_positionsAll_iff.mp hposition
      exact List.nil_lt_cons _ _
    · exact ⟨fun position hposition => absurd hposition List.not_mem_nil, List.Pairwise.nil⟩

/-- Each place of an outline stands at its position. -/
theorem forall₂_positionsAll
    (h : ∀ l ∈ ls, List.Forall₂ (fun position p => ∃ below,
      wayTo? l.links position = some below ∧ p.way = above ++ l :: below)
        (l.positions root above) (l.places root above)) :
    List.Forall₂ (fun position p => ∃ i rest way,
      position = (first + i) :: rest ∧ wayTo? ls (i :: rest) = some way ∧ p.way = above ++ way)
        (positionsAll root above first ls) (placesAll root above ls) := by
  induction ls generalizing first with
  | nil => exact .nil
  | cons l ls ih =>
    obtain ⟨hl, hls⟩ := List.forall_mem_cons.mp h
    rw [positionsAll, placesAll]
    refine List.rel_append ?_ ?_
    · rw [List.forall₂_map_left_iff]
      refine hl.imp ?_
      rintro position p ⟨below, hbelow, hway⟩
      exact ⟨0, position, l :: below, rfl, wayTo?_cons_eq_some_iff.mpr ⟨l, below, rfl, hbelow, rfl⟩,
        hway⟩
    · refine (ih hls).imp ?_
      rintro position p ⟨i, rest, way, rfl, hway, hp⟩
      obtain ⟨l', below, hl', hbelow, rfl⟩ := wayTo?_cons_eq_some_iff.mp hway
      exact ⟨i + 1, rest, l' :: below, by rw [Nat.add_assoc, Nat.add_comm 1],
        wayTo?_cons_eq_some_iff.mpr ⟨l', below, hl', hbelow, rfl⟩, hp⟩

theorem forall₂_positions (l : Link) (above : List Link) :
    List.Forall₂ (fun position p => ∃ below,
      wayTo? l.links position = some below ∧ p.way = above ++ l :: below)
        (l.positions root above) (l.places root above) := by
  induction l using Link.inside_induction generalizing above with
  | mk featureType name links ih =>
    rw [Link.positions, Link.places]
    refine .cons ⟨[], rfl, rfl⟩ ?_
    split
    · refine (forall₂_positionsAll fun l hl => ih l hl _).imp ?_
      rintro position p ⟨i, rest, way, rfl, hway, hp⟩
      rw [Nat.zero_add]
      exact ⟨way, hway, by rw [hp, List.append_assoc, List.singleton_append]⟩
    · exact .nil

/-! ## Which positions they are -/

/-- Every link of a way is expandable, below the links above. -/
def IsOpen (root : FeatureTypeId) (above way : List Link) : Prop :=
  ∀ front l, front ++ [l] <+: way → (⟨above ++ front, l⟩ : Place).IsExpandable root

theorem isOpen_nil : IsOpen root above [] := by
  intro front l hprefix
  exact absurd (List.prefix_nil.mp hprefix)
    (List.append_ne_nil_of_right_ne_nil _ (List.cons_ne_nil _ _))

theorem isOpen_cons_iff {l : Link} {way : List Link} :
    IsOpen root above (l :: way) ↔
      (⟨above, l⟩ : Place).IsExpandable root ∧ IsOpen root (above ++ [l]) way := by
  constructor
  · intro h
    refine ⟨by simpa using h [] l ⟨way, rfl⟩, fun front l' hprefix => ?_⟩
    have hopen := h (l :: front) l' (List.cons_prefix_cons.mpr ⟨rfl, hprefix⟩)
    simpa only [List.append_assoc, List.singleton_append] using hopen
  · rintro ⟨hl, hway⟩ front l' hprefix
    cases front with
    | nil =>
      obtain ⟨rfl, -⟩ := List.cons_prefix_cons.mp hprefix
      simpa only [List.append_nil] using hl
    | cons l'' front =>
      obtain ⟨rfl, hrest⟩ := List.cons_prefix_cons.mp hprefix
      simpa only [List.append_assoc, List.singleton_append] using hway front l' hrest

/-- **A position is listed when the way to it is open** up to the last
link. -/
theorem mem_positions_iff (l : Link) (above : List Link) (position : List Nat) :
    position ∈ l.positions root above ↔
      ∃ below, wayTo? l.links position = some below ∧
        IsOpen root above (l :: below).dropLast := by
  induction l using Link.inside_induction generalizing above position with
  | mk featureType name links ih =>
    have hexpanded := Place.isExpanded_iff root ⟨above, ⟨featureType, name, links⟩⟩
    rw [Link.positions, List.mem_cons]
    cases position with
    | nil => exact ⟨fun _ => ⟨[], rfl, isOpen_nil⟩, fun _ => .inl rfl⟩
    | cons i rest =>
      constructor
      · rintro (h | h)
        · cases h
        · split at h
          · next htest =>
            obtain ⟨j, l, rest', hl, hrest, hposition⟩ := mem_positionsAll_iff.mp h
            obtain ⟨rfl, rfl⟩ := List.cons.inj hposition
            obtain ⟨below, hbelow, hopen⟩ := (ih l (List.mem_of_getElem? hl) _ _).mp hrest
            rw [Nat.zero_add]
            exact ⟨l :: below, wayTo?_cons_eq_some_iff.mpr ⟨l, below, hl, hbelow, rfl⟩,
              isOpen_cons_iff.mpr ⟨hexpanded.mp htest, hopen⟩⟩
          · exact absurd h List.not_mem_nil
      · rintro ⟨way, hway, hopen⟩
        obtain ⟨l, below, hl, hbelow, rfl⟩ := wayTo?_cons_eq_some_iff.mp hway
        obtain ⟨hself, hopen⟩ := isOpen_cons_iff.mp hopen
        have hrest := (ih l (List.mem_of_getElem? hl) _ rest).mpr ⟨below, hbelow, hopen⟩
        refine .inr ?_
        rw [if_pos (hexpanded.mpr hself)]
        exact mem_positionsAll_iff.mpr ⟨i, l, rest, hl, hrest, by rw [Nat.zero_add]⟩

theorem Place.isOpen_above_iff {p : Place} : IsOpen root [] p.above ↔ p.IsListed root := by
  constructor
  · intro h a ha
    exact h a.above a.link ha
  · intro h front l hprefix
    exact h ⟨front, l⟩ hprefix

theorem mem_positionsAll_zero_iff {position : List Nat} :
    position ∈ positionsAll root [] 0 ls ↔ ∃ p : Place, p.IsAt ls position ∧ p.IsListed root := by
  rw [mem_positionsAll_iff]
  constructor
  · rintro ⟨i, l, rest, hl, hrest, rfl⟩
    obtain ⟨below, hbelow, hopen⟩ := (mem_positions_iff l [] rest).mp hrest
    have hne : l :: below ≠ [] := List.cons_ne_nil _ _
    refine ⟨⟨(l :: below).dropLast, (l :: below).getLast hne⟩, ?_, Place.isOpen_above_iff.mp hopen⟩
    rw [Place.IsAt, Place.way, List.dropLast_append_getLast, Nat.zero_add]
    exact wayTo?_cons_eq_some_iff.mpr ⟨l, below, hl, hbelow, rfl⟩
  · rintro ⟨p, hat, hlisted⟩
    cases position with
    | nil =>
      -- the empty position leads nowhere, but the way of a place has its link
      have hnil := Option.some.inj hat
      exact absurd hnil.symm (List.append_ne_nil_of_right_ne_nil _ (List.cons_ne_nil _ _))
    | cons i rest =>
      obtain ⟨l, below, hl, hbelow, hway⟩ := wayTo?_cons_eq_some_iff.mp hat
      have habove : (l :: below).dropLast = p.above := by
        rw [← hway, Place.way, List.dropLast_concat]
      refine ⟨i, l, rest, hl, (mem_positions_iff l [] rest).mpr ⟨below, hbelow, ?_⟩, by
        rw [Nat.zero_add]⟩
      rw [habove]
      exact Place.isOpen_above_iff.mpr hlisted

end Positions

example : positionsAll 1 [] 0
    [⟨3, "part", [⟨6, "name", []⟩, ⟨7, "side", [⟨4, "bolt", []⟩, ⟨5, "nut", []⟩]⟩]⟩] =
      [[0], [0, 0], [0, 1], [0, 1, 0], [0, 1, 1]] := by
  decide +kernel

/-! ## The outline of a layer -/

/-- **The outline lists the listed places, in pre-order.** First comes the
entry of the layer. Behind it there is one entry for each position of the
metadata at which all places above are expandable, and for no other; the
positions ascend, and each entry shows the place at its position. -/
theorem exists_positions_of_sources (labelOf : String → Option String) (layer : Layer)
    (m : Metadata) :
    ∃ positions entries,
      sources labelOf layer (some m) = ⟨layer.featureType, layer.label, none⟩ :: entries ∧
      positions.Pairwise (· < ·) ∧
      (∀ position, position ∈ positions ↔
        ∃ p : Place, p.IsAt m.links position ∧ p.IsListed layer.featureType) ∧
      List.Forall₂ (fun position e =>
        ∃ p : Place, p.IsAt m.links position ∧ p.IsShownBy labelOf e) positions entries := by
  refine ⟨positionsAll layer.featureType [] 0 m.links, (m.places layer).map (Place.entry labelOf),
    sources_eq labelOf layer m, pairwise_positionsAll fun l _ => pairwise_positions l [],
    fun _ => mem_positionsAll_zero_iff, ?_⟩
  rw [List.forall₂_map_right_iff]
  refine (forall₂_positionsAll fun l _ => forall₂_positions l []).imp ?_
  rintro position p ⟨i, rest, way, rfl, hway, hp⟩
  refine ⟨p, ?_, p.isShownBy_entry labelOf⟩
  rw [Place.IsAt, hp, List.nil_append, Nat.zero_add]
  exact hway

end Relations

end LayerQuery
