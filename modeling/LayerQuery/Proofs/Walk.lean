import LayerQuery.Proofs.Chain
import Mathlib.Data.List.Chain
import Mathlib.Data.List.Nodup
/-!
# Chains of arbitrary fragments

`Chain.combine` takes fragments as they come: in any order, with ids that
come twice, with parents that do not exist, with forks and with cycles.
This file says exactly what becomes of them.

A walk starts at the first fragment with the root id and goes on from a
fragment without a filter to its only child, unless it has met the
child's id before (`IsWalk`). No fragment leaves a choice, so every walk
is a first part of the one that the combiner takes
(`resolve_eq_of_isWalk`); and as each step meets a new id, one of them
ends where it cannot go on (`exists_stops`). There are four ways for a
walk to end, and only the one at a filter makes a chain. The feature
types are compared after that, from the leaf upwards, so that of all
mismatches the one nearest to the leaf is named.
-/

namespace LayerQuery

namespace Relations

namespace Chain

variable {rootId : String} {fragments front walk chain : List Fragment} {seen : List String}
variable {f g last : Fragment}

/-! ## Walks -/

/-- How many fragments name a parent. -/
def childCount (fragments : List Fragment) (id : String) : Nat :=
  fragments.countP fun f => f.parentId = some id

/-- The fragment is the first one that has the id. -/
def IsFirst (id : String) (fragments : List Fragment) (f : Fragment) : Prop :=
  f.id = id ∧ ∃ before after, fragments = before ++ f :: after ∧ ∀ g ∈ before, g.id ≠ id

/-- One step of a walk: the first fragment carries no filter, and the
second is the only one of all fragments that names it as its parent. -/
structure LeadsTo (fragments : List Fragment) (f g : Fragment) : Prop where
  noFilter : f.filter = none
  mem : g ∈ fragments
  parent : g.parentId = some f.id
  only : childCount fragments f.id = 1

/-- A walk from the root, step by step and to no id twice. -/
structure IsWalk (rootId : String) (fragments walk : List Fragment) : Prop where
  start : ∃ root, walk.head? = some root ∧ IsFirst rootId fragments root
  steps : walk.IsChain (LeadsTo fragments)
  distinct : (walk.map Fragment.id).Nodup

/-- The ids that a walk has met, the last one first. -/
def visited (walk : List Fragment) : List String :=
  (walk.map Fragment.id).reverse

/-- How a walk that has met the ids of `seen` ends at a fragment, and
what the rest of the chain is then. -/
inductive Stops (fragments : List Fragment) (seen : List String) (last : Fragment) :
    Except CompileError (List Fragment) → Prop
  /-- The fragment carries a filter. -/
  | leaf (h : last.filter.isSome) : Stops fragments seen last (.ok [last])
  /-- It carries none, and has no child. -/
  | noFilter (h : last.filter = none) (hchild : childCount fragments last.id = 0) :
    Stops fragments seen last (.error (.brokenChain last.id .noFilter))
  /-- It has more than one child. -/
  | fork (h : last.filter = none) (hchild : 1 < childCount fragments last.id) :
    Stops fragments seen last (.error (.brokenChain last.id .fork))
  /-- Its only child has an id that was met before. -/
  | cycle {next : Fragment} (h : LeadsTo fragments last next) (hseen : next.id ∈ seen) :
    Stops fragments seen last (.error (.brokenChain next.id .cycle))

/-! ## One step -/

theorem length_children (fragments : List Fragment) (id : String) :
    (children fragments id).length = childCount fragments id :=
  List.countP_eq_length_filter.symm

theorem mem_children {id : String} :
    g ∈ children fragments id ↔ g ∈ fragments ∧ g.parentId = some id := by
  simp [children]

theorem children_eq_nil (h : childCount fragments f.id = 0) : children fragments f.id = [] := by
  rw [← length_children] at h
  exact List.length_eq_zero_iff.mp h

theorem exists_children_eq (h : 1 < childCount fragments f.id) :
    ∃ g g' rest, children fragments f.id = g :: g' :: rest := by
  rw [← length_children] at h
  match hchildren : children fragments f.id with
  | [] | [_] => simp [hchildren] at h
  | g :: g' :: rest => exact ⟨g, g', rest, rfl⟩

/-- A fragment that leads to another has that one for its only child. -/
theorem LeadsTo.children_eq (h : LeadsTo fragments f g) : children fragments f.id = [g] := by
  have hone : (children fragments f.id).length = 1 := by rw [length_children, h.only]
  obtain ⟨only, honly⟩ := List.length_eq_one_iff.mp hone
  have hmem : g ∈ children fragments f.id := mem_children.mpr ⟨h.mem, h.parent⟩
  rw [honly, List.mem_singleton] at hmem
  rw [honly, hmem]

/-- **A fragment stops a walk or leads it on.** -/
theorem stops_or_leadsTo (fragments : List Fragment) (seen : List String) (f : Fragment) :
    (∃ result, Stops fragments seen f result) ∨ ∃ g, LeadsTo fragments f g ∧ g.id ∉ seen := by
  cases hfilter : f.filter with
  | some filter => exact .inl ⟨_, .leaf (by rw [hfilter]; rfl)⟩
  | none =>
    have hcount := length_children fragments f.id
    rcases hchildren : children fragments f.id with - | ⟨g, - | ⟨g', rest⟩⟩
    · rw [hchildren, List.length_nil] at hcount
      exact .inl ⟨_, .noFilter hfilter hcount.symm⟩
    · rw [hchildren, List.length_singleton] at hcount
      have hmem : g ∈ children fragments f.id := by rw [hchildren]; exact List.mem_singleton_self g
      obtain ⟨hg, hparent⟩ := mem_children.mp hmem
      have hleads : LeadsTo fragments f g := ⟨hfilter, hg, hparent, hcount.symm⟩
      by_cases hseen : g.id ∈ seen
      · exact .inl ⟨_, .cycle hleads hseen⟩
      · exact .inr ⟨g, hleads, hseen⟩
    · rw [hchildren, List.length_cons, List.length_cons] at hcount
      exact .inl ⟨_, .fork hfilter (by omega)⟩

/-- Where a fragment leads on, so does the combiner. -/
theorem LeadsTo.follow_eq (h : LeadsTo fragments f g) (hunseen : g.id ∉ seen) :
    follow fragments seen f = (follow fragments (g.id :: seen) g).map (f :: ·) := by
  rw [follow_step, h.noFilter, h.children_eq]
  exact if_neg hunseen

/-- And where it stops, the combiner does. -/
theorem Stops.follow_eq {result : Except CompileError (List Fragment)}
    (h : Stops fragments seen last result) : follow fragments seen last = result := by
  cases h with
  | leaf hfilter => rw [follow_step, if_pos hfilter]
  | noFilter hfilter hchild =>
    rw [follow_step, hfilter, children_eq_nil hchild]
    rfl
  | fork hfilter hchild =>
    obtain ⟨g, g', rest, hchildren⟩ := exists_children_eq hchild
    rw [follow_step, hfilter, hchildren]
    rfl
  | cycle hleads hseen =>
    rw [follow_step, hleads.noFilter, hleads.children_eq]
    exact if_pos hseen

/-! ## The whole walk -/

theorem find?_eq_some_iff_isFirst {id : String} :
    (fragments.find? fun f => f.id = id) = some f ↔ IsFirst id fragments f := by
  simp [List.find?_eq_some_iff_append, IsFirst]

theorem IsFirst.mem (h : IsFirst rootId fragments f) : f ∈ fragments := by
  obtain ⟨-, before, after, rfl, -⟩ := h
  exact List.mem_append_right before List.mem_cons_self

/-- A walk has a fragment to start at, or none has the root id. -/
theorem forall_ne_or_exists_isFirst (id : String) (fragments : List Fragment) :
    (∀ f ∈ fragments, f.id ≠ id) ∨ ∃ root, IsFirst id fragments root := by
  cases hroot : fragments.find? fun f => f.id = id with
  | none => exact .inl fun f hf => by simpa using List.find?_eq_none.mp hroot f hf
  | some root => exact .inr ⟨root, find?_eq_some_iff_isFirst.mp hroot⟩

theorem resolve_of_forall_ne (h : ∀ f ∈ fragments, f.id ≠ rootId) :
    resolve rootId fragments = .error (.brokenChain rootId .noRoot) := by
  have hnone : (fragments.find? fun f => f.id = rootId) = none := by
    simpa using h
  rw [resolve, hnone]

theorem isWalk_singleton {root : Fragment} (h : IsFirst rootId fragments root) :
    IsWalk rootId fragments ([] ++ [root]) :=
  ⟨⟨root, rfl, h⟩, List.isChain_singleton root, List.nodup_singleton root.id⟩

theorem visited_append_singleton : visited (front ++ [last]) = last.id :: visited front := by
  simp [visited]

theorem mem_visited {id : String} : id ∈ visited walk ↔ id ∈ walk.map Fragment.id := by
  simp [visited]

/-- A walk taken one step further. -/
theorem isWalk_append_iff :
    IsWalk rootId fragments (front ++ [f] ++ [g]) ↔
      IsWalk rootId fragments (front ++ [f]) ∧ LeadsTo fragments f g ∧
        g.id ∉ visited (front ++ [f]) := by
  have hhead : (front ++ [f] ++ [g]).head? = (front ++ [f]).head? := by
    cases front <;> rfl
  have hsteps : (front ++ [f] ++ [g]).IsChain (LeadsTo fragments) ↔
      (front ++ [f]).IsChain (LeadsTo fragments) ∧ LeadsTo fragments f g := by
    rw [List.isChain_append]
    simp
  have hdistinct : ((front ++ [f] ++ [g]).map Fragment.id).Nodup ↔
      ((front ++ [f]).map Fragment.id).Nodup ∧ g.id ∉ visited (front ++ [f]) := by
    rw [mem_visited, List.map_append, List.nodup_append_comm, List.map_singleton,
      List.singleton_append, List.nodup_cons, and_comm]
  constructor
  · rintro ⟨hstart, hchain, hnodup⟩
    obtain ⟨hchain, hleads⟩ := hsteps.mp hchain
    obtain ⟨hnodup, hunseen⟩ := hdistinct.mp hnodup
    exact ⟨⟨hhead ▸ hstart, hchain, hnodup⟩, hleads, hunseen⟩
  · rintro ⟨⟨hstart, hchain, hnodup⟩, hleads, hunseen⟩
    exact ⟨hhead ▸ hstart, hsteps.mpr ⟨hchain, hleads⟩, hdistinct.mpr ⟨hnodup, hunseen⟩⟩

/-- **Every walk is a first part of the combiner's.** What is left to do
at its end is to follow the chain from there, with the ids that the walk
has met. -/
theorem resolve_eq_of_isWalk (h : IsWalk rootId fragments (front ++ [last])) :
    resolve rootId fragments =
      (follow fragments (visited (front ++ [last])) last).map (front ++ ·) := by
  induction front using List.reverseRecOn generalizing last with
  | nil =>
    obtain ⟨root, hroot, hfirst⟩ := h.start
    obtain rfl : last = root := Option.some.inj hroot
    have hmap : ∀ result : Except CompileError (List Fragment), result.map ([] ++ ·) = result := by
      intro result
      cases result <;> rfl
    rw [resolve, find?_eq_some_iff_isFirst.mpr hfirst, hmap]
    rfl
  | append_singleton front f ih =>
    obtain ⟨hwalk, hleads, hunseen⟩ := isWalk_append_iff.mp h
    rw [ih hwalk, hleads.follow_eq hunseen, ← visited_append_singleton]
    cases follow fragments (visited (front ++ [f] ++ [last])) last with
    | error e => rfl
    | ok rest => simp [Except.map]

/-- So where a walk stops, the combiner does. -/
theorem resolve_eq_of_stops {result : Except CompileError (List Fragment)}
    (hwalk : IsWalk rootId fragments (front ++ [last]))
    (hstops : Stops fragments (visited (front ++ [last])) last result) :
    resolve rootId fragments = result.map (front ++ ·) := by
  rw [resolve_eq_of_isWalk hwalk, hstops.follow_eq]

/-- **Some walk stops.** Each step leaves fewer fragments whose id was
not met. -/
theorem exists_stops (h : IsWalk rootId fragments (front ++ [last])) :
    ∃ front last result, IsWalk rootId fragments (front ++ [last]) ∧
      Stops fragments (visited (front ++ [last])) last result := by
  induction hunseen : (unseen fragments (visited (front ++ [last]))).length
    using Nat.strong_induction_on generalizing front last with
  | _ n ih =>
    rcases stops_or_leadsTo fragments (visited (front ++ [last])) last with
      ⟨result, hstops⟩ | ⟨g, hleads, hnew⟩
    · exact ⟨front, last, result, h, hstops⟩
    · have hfewer := length_unseen_lt hleads.mem hnew
      rw [← visited_append_singleton, hunseen] at hfewer
      exact ih _ hfewer (isWalk_append_iff.mpr ⟨h, hleads, hnew⟩) rfl

/-- **What the walk from the root comes to**: there is none, or it stops
somewhere and the chain is what was walked until then. -/
theorem resolve_cases (rootId : String) (fragments : List Fragment) :
    ((∀ f ∈ fragments, f.id ≠ rootId) ∧
        resolve rootId fragments = .error (.brokenChain rootId .noRoot)) ∨
      ∃ front last result, IsWalk rootId fragments (front ++ [last]) ∧
        Stops fragments (visited (front ++ [last])) last result ∧
        resolve rootId fragments = result.map (front ++ ·) := by
  rcases forall_ne_or_exists_isFirst rootId fragments with hroot | ⟨root, hfirst⟩
  · exact .inl ⟨hroot, resolve_of_forall_ne hroot⟩
  · obtain ⟨front, last, result, hwalk, hstops⟩ := exists_stops (isWalk_singleton hfirst)
    exact .inr ⟨front, last, result, hwalk, hstops, resolve_eq_of_stops hwalk hstops⟩

/-! ## The chain as a filter -/

/-- The filter at the end of a chain. -/
def leafFilter (chain : List Fragment) : Option String :=
  chain.getLast?.bind Fragment.filter

/-- A child names the feature type of its parent. -/
def Fits (parent child : Fragment) : Prop :=
  child.parentType = some parent.featureType

theorem exists_append_singleton_of_leafFilter {filter : String}
    (h : leafFilter chain = some filter) :
    ∃ front last, chain = front ++ [last] ∧ last.filter = some filter := by
  obtain ⟨last, hlast, hfilter⟩ := Option.bind_eq_some_iff.mp h
  obtain ⟨front, rfl⟩ := List.getLast?_eq_some_iff.mp hlast
  exact ⟨front, last, rfl, hfilter⟩

theorem leafFilter_append_singleton (front : List Fragment) (last : Fragment) :
    leafFilter (front ++ [last]) = last.filter := by
  simp [leafFilter]

/-- A chain in which all types fit is one call for each hop. -/
theorem wrap_of_fits (h : chain.IsChain Fits) :
    wrap chain = .ok (nested (chain.map Fragment.featureType) ((leafFilter chain).getD "")) := by
  induction chain with
  | nil => rfl
  | cons parent rest ih =>
    cases rest with
    | nil => rfl
    | cons child rest =>
      obtain ⟨hfits, hrest⟩ := List.isChain_cons_cons.mp h
      have hleaf : leafFilter (parent :: child :: rest) = leafFilter (child :: rest) := by
        rw [leafFilter, List.getLast?_cons_cons, leafFilter]
      rw [wrap, ih hrest, hleaf]
      simp only [List.map_cons, nested_cons_cons, ← throughParent_eq]
      exact if_pos hfits

/-- **Of the types that do not fit, those nearest to the leaf are found
first.** -/
theorem wrap_of_not_fits {parent child : Fragment} {rest : List Fragment}
    (hfits : ¬ Fits parent child) (hrest : (child :: rest).IsChain Fits)
    (front : List Fragment) :
    wrap (front ++ parent :: child :: rest) = .error (.brokenChain child.id .typeMismatch) := by
  induction front with
  | nil =>
    rw [List.nil_append, wrap, wrap_of_fits hrest]
    exact if_neg hfits
  | cons above front ih =>
    -- the walk up goes through the mismatch whatever stands above it
    cases front with
    | nil =>
      rw [List.cons_append, List.nil_append, wrap, ← List.nil_append (parent :: _), ih]
      rfl
    | cons next front =>
      rw [List.cons_append, List.cons_append, wrap, ← List.cons_append, ih]
      rfl

theorem exists_mismatch (h : ¬ chain.IsChain Fits) :
    ∃ front parent child rest, chain = front ++ parent :: child :: rest ∧
      ¬ Fits parent child ∧ (child :: rest).IsChain Fits := by
  induction chain with
  | nil => exact absurd List.isChain_nil h
  | cons parent rest ih =>
    by_cases hrest : rest.IsChain Fits
    · cases rest with
      | nil => exact absurd (List.isChain_singleton parent) h
      | cons child rest =>
        exact ⟨[], parent, child, rest, rfl,
          fun hfits => h (List.isChain_cons_cons.mpr ⟨hfits, hrest⟩), hrest⟩
    · obtain ⟨front, parent', child, after, rfl, hfits, hafter⟩ := ih hrest
      exact ⟨parent :: front, parent', child, after, rfl, hfits, hafter⟩

/-! ## What becomes of fragments -/

/-- The fragments hold together in a chain: it is a walk from the root,
ends with the filter, and its types fit. That no fragment before the last
carries a filter is part of the walk. -/
structure HoldsTogether (rootId : String) (fragments chain : List Fragment)
    (filter : String) : Prop where
  walk : IsWalk rootId fragments chain
  leaf : leafFilter chain = some filter
  types : chain.IsChain Fits

/-- Where fragments do not hold together, and why. -/
inductive Breaks (rootId : String) (fragments : List Fragment) : String → ChainProblem → Prop
  /-- There is no root. -/
  | noRoot (h : ∀ f ∈ fragments, f.id ≠ rootId) : Breaks rootId fragments rootId .noRoot
  /-- The walk comes to a fragment without a filter and without a child. -/
  | noFilter {front : List Fragment} {last : Fragment}
    (hwalk : IsWalk rootId fragments (front ++ [last])) (hfilter : last.filter = none)
    (hchild : childCount fragments last.id = 0) : Breaks rootId fragments last.id .noFilter
  /-- Or to one without a filter and with several children. -/
  | fork {front : List Fragment} {last : Fragment}
    (hwalk : IsWalk rootId fragments (front ++ [last])) (hfilter : last.filter = none)
    (hchild : 1 < childCount fragments last.id) : Breaks rootId fragments last.id .fork
  /-- Or it leads to an id that it has met. -/
  | cycle {front : List Fragment} {last next : Fragment}
    (hwalk : IsWalk rootId fragments (front ++ [last])) (hnext : LeadsTo fragments last next)
    (hmet : ∃ f ∈ front ++ [last], f.id = next.id) : Breaks rootId fragments next.id .cycle
  /-- Or it ends with a filter, and the types of two neighbours do not
  fit while all those below them do. -/
  | typeMismatch {front rest : List Fragment} {parent child : Fragment} {filter : String}
    (hwalk : IsWalk rootId fragments (front ++ parent :: child :: rest))
    (hleaf : leafFilter (front ++ parent :: child :: rest) = some filter)
    (hfits : ¬ Fits parent child) (hrest : (child :: rest).IsChain Fits) :
    Breaks rootId fragments child.id .typeMismatch

theorem resolve_eq_ok_iff :
    resolve rootId fragments = .ok chain ↔
      IsWalk rootId fragments chain ∧ ∃ filter, leafFilter chain = some filter := by
  constructor
  · intro h
    rcases resolve_cases rootId fragments with
      ⟨-, hnone⟩ | ⟨front, last, result, hwalk, hstops, heq⟩
    · rw [hnone] at h
      cases h
    · rw [heq] at h
      obtain ⟨rest, rfl, rfl⟩ := eq_ok_of_map_eq_ok h
      cases hstops with
      | leaf hfilter =>
        refine ⟨hwalk, ?_⟩
        rw [leafFilter_append_singleton]
        exact Option.isSome_iff_exists.mp hfilter
  · rintro ⟨hwalk, filter, hleaf⟩
    obtain ⟨front, last, rfl, hfilter⟩ := exists_append_singleton_of_leafFilter hleaf
    exact resolve_eq_of_stops hwalk (.leaf (by rw [hfilter]; rfl))

theorem HoldsTogether.resolve_eq {filter : String}
    (h : HoldsTogether rootId fragments chain filter) : resolve rootId fragments = .ok chain :=
  resolve_eq_ok_iff.mpr ⟨h.walk, filter, h.leaf⟩

/-- **There is at most one chain.** -/
theorem HoldsTogether.unique {chain' : List Fragment} {filter filter' : String}
    (h : HoldsTogether rootId fragments chain filter)
    (h' : HoldsTogether rootId fragments chain' filter') : chain = chain' :=
  Except.ok.inj (h.resolve_eq.symm.trans h'.resolve_eq)

/-- **Fragments combine exactly when they hold together**, into one call
for each hop of their chain. -/
theorem combine_eq_ok_iff {text : String} :
    combine rootId fragments = .ok text ↔
      ∃ chain filter, HoldsTogether rootId fragments chain filter ∧
        text = nested (chain.map Fragment.featureType) filter := by
  constructor
  · intro h
    obtain ⟨chain, hchain, hwrap⟩ := eq_ok_of_bind_eq_ok h
    obtain ⟨hwalk, filter, hleaf⟩ := resolve_eq_ok_iff.mp hchain
    have htypes : chain.IsChain Fits := by
      by_contra hmismatch
      obtain ⟨front, parent, child, rest, rfl, hfits, hrest⟩ := exists_mismatch hmismatch
      rw [wrap_of_not_fits hfits hrest] at hwrap
      cases hwrap
    refine ⟨chain, filter, ⟨hwalk, hleaf, htypes⟩, ?_⟩
    rw [wrap_of_fits htypes, hleaf] at hwrap
    exact (Except.ok.inj hwrap).symm
  · rintro ⟨chain, filter, h, rfl⟩
    rw [combine, h.resolve_eq]
    change wrap chain = _
    rw [wrap_of_fits h.types, h.leaf]
    rfl

/-- **Otherwise they break**, at the fragment and for the reason that is
given. -/
theorem combine_eq_error_iff {e : CompileError} :
    combine rootId fragments = .error e ↔
      ∃ id problem, Breaks rootId fragments id problem ∧ e = .brokenChain id problem := by
  constructor
  · intro h
    rcases resolve_cases rootId fragments with
      ⟨hroot, heq⟩ | ⟨front, last, result, hwalk, hstops, heq⟩
    · rw [combine, heq] at h
      exact ⟨_, _, .noRoot hroot, (Except.error.inj h).symm⟩
    · rw [combine, heq] at h
      cases hstops with
      | leaf hfilter =>
        obtain ⟨filter, hfilter⟩ := Option.isSome_iff_exists.mp hfilter
        rw [← leafFilter_append_singleton front] at hfilter
        change wrap (front ++ [last]) = _ at h
        by_cases htypes : (front ++ [last]).IsChain Fits
        · rw [wrap_of_fits htypes] at h
          cases h
        · obtain ⟨above, parent, child, rest, hchain, hfits, hrest⟩ := exists_mismatch htypes
          rw [hchain] at h hwalk hfilter
          rw [wrap_of_not_fits hfits hrest] at h
          exact ⟨_, _, .typeMismatch hwalk hfilter hfits hrest, (Except.error.inj h).symm⟩
      | noFilter hfilter hchild =>
        exact ⟨_, _, .noFilter hwalk hfilter hchild, (Except.error.inj h).symm⟩
      | fork hfilter hchild =>
        exact ⟨_, _, .fork hwalk hfilter hchild, (Except.error.inj h).symm⟩
      | cycle hnext hmet =>
        have hmet := List.mem_map.mp (mem_visited.mp hmet)
        exact ⟨_, _, .cycle hwalk hnext hmet, (Except.error.inj h).symm⟩
  · rintro ⟨id, problem, hbreaks, rfl⟩
    cases hbreaks with
    | noRoot hroot =>
      rw [combine, resolve_of_forall_ne hroot]
      rfl
    | noFilter hwalk hfilter hchild =>
      rw [combine, resolve_eq_of_stops hwalk (.noFilter hfilter hchild)]
      rfl
    | fork hwalk hfilter hchild =>
      rw [combine, resolve_eq_of_stops hwalk (.fork hfilter hchild)]
      rfl
    | cycle hwalk hnext hmet =>
      have hmet := mem_visited.mpr (List.mem_map.mpr hmet)
      rw [combine, resolve_eq_of_stops hwalk (.cycle hnext hmet)]
      rfl
    | typeMismatch hwalk hleaf hfits hrest =>
      rw [combine, resolve_eq_ok_iff.mpr ⟨hwalk, _, hleaf⟩]
      exact wrap_of_not_fits hfits hrest _

/-- **What becomes of any fragments at all.** They combine exactly when
they hold together in a chain, of which there is one, and their filter is
that of the leaf inside one call for each hop, the first hop outermost.
Otherwise they break: at the root id where no fragment has it, at the
first fragment of the walk without a filter that has no child or several,
at the first id that is met again, or, where the walk has found a filter,
at the lowest fragment that names another type than its parent has. -/
theorem combine_eq_iff (rootId : String) (fragments : List Fragment) :
    (∀ text, combine rootId fragments = .ok text ↔
      ∃ chain filter, HoldsTogether rootId fragments chain filter ∧
        text = nested (chain.map Fragment.featureType) filter) ∧
    (∀ chain chain' filter filter', HoldsTogether rootId fragments chain filter →
      HoldsTogether rootId fragments chain' filter' → chain = chain') ∧
    ∀ e, combine rootId fragments = .error e ↔
      ∃ id problem, Breaks rootId fragments id problem ∧ e = .brokenChain id problem :=
  ⟨fun _ => combine_eq_ok_iff, fun _ _ _ _ h h' => h.unique h', fun _ => combine_eq_error_iff⟩

/-- The links of a chain, the leaf first. A second fragment has the root
id, and one fragment is its own parent. -/
def tangled : List Fragment :=
  [⟨"leaf", some "middle", 9, some 7, some "\"x\" = 1"⟩, ⟨"middle", some "root", 7, some 5, none⟩,
    ⟨"root", none, 5, none, none⟩, ⟨"root", none, 6, none, some "\"y\" = 2"⟩,
    ⟨"loop", some "loop", 8, some 8, none⟩]

/-- Two fragments that are each the parent of the other. -/
def ring : List Fragment :=
  [⟨"root", some "other", 5, some 7, none⟩, ⟨"other", some "root", 7, some 5, none⟩]

theorem holdsTogether_tangled :
    HoldsTogether "root" tangled
      [⟨"root", none, 5, none, none⟩, ⟨"middle", some "root", 7, some 5, none⟩,
        ⟨"leaf", some "middle", 9, some 7, some "\"x\" = 1"⟩] "\"x\" = 1" := by
  have hstart : IsFirst "root" tangled ⟨"root", none, 5, none, none⟩ :=
    find?_eq_some_iff_isFirst.mp (by decide)
  have hmiddle : LeadsTo tangled ⟨"root", none, 5, none, none⟩
      ⟨"middle", some "root", 7, some 5, none⟩ := ⟨rfl, by decide, rfl, by decide⟩
  have hleaf : LeadsTo tangled ⟨"middle", some "root", 7, some 5, none⟩
      ⟨"leaf", some "middle", 9, some 7, some "\"x\" = 1"⟩ := ⟨rfl, by decide, rfl, by decide⟩
  exact ⟨⟨⟨_, rfl, hstart⟩, .cons_cons hmiddle (.cons_cons hleaf (.singleton _)), by decide⟩, rfl,
    .cons_cons rfl (.cons_cons rfl (.singleton _))⟩

theorem breaks_ring : Breaks "root" ring "root" .cycle := by
  have hstart : IsFirst "root" ring ⟨"root", some "other", 5, some 7, none⟩ :=
    find?_eq_some_iff_isFirst.mp (by decide)
  have hother : LeadsTo ring ⟨"root", some "other", 5, some 7, none⟩
      ⟨"other", some "root", 7, some 5, none⟩ := ⟨rfl, by decide, rfl, by decide⟩
  have hback : LeadsTo ring ⟨"other", some "root", 7, some 5, none⟩
      ⟨"root", some "other", 5, some 7, none⟩ := ⟨rfl, by decide, rfl, by decide⟩
  have hwalk : IsWalk "root" ring
      ([⟨"root", some "other", 5, some 7, none⟩] ++ [⟨"other", some "root", 7, some 5, none⟩]) :=
    ⟨⟨_, rfl, hstart⟩, .cons_cons hother (.singleton _), by decide⟩
  exact .cycle hwalk hback ⟨_, List.mem_cons_self, rfl⟩

/-- The tangled links have one chain, and the ring has none. -/
theorem combine_tangled_and_ring :
    combine "root" tangled = .ok "RELATED_LAYER(5, 7, RELATED_LAYER(7, 9, \"x\" = 1))" ∧
    (∀ chain filter, HoldsTogether "root" tangled chain filter → chain.length = 3) ∧
    combine "root" ring = .error (.brokenChain "root" .cycle) := by
  obtain ⟨hok, hunique, -⟩ := combine_eq_iff "root" tangled
  obtain ⟨-, -, herror⟩ := combine_eq_iff "root" ring
  refine ⟨(hok _).mpr ⟨_, _, holdsTogether_tangled, by decide⟩, ?_,
    (herror _).mpr ⟨_, _, breaks_ring, rfl⟩⟩
  intro chain filter h
  rw [hunique chain _ filter _ h holdsTogether_tangled]
  rfl

end Chain

end Relations

end LayerQuery
