import LayerQuery.Proofs.Walk
import Mathlib.Data.List.Dedup
import Mathlib.Data.List.Perm.Subperm
/-!
# The search for a chain, round by round

`Chain.resolve` finds a chain by a recursion and puts it together on the
way back. Here the same is done in rounds. Between two of them there is
the chain so far, the ids that were met and the fragment at hand; a round
looks at that fragment and either ends the search or takes one fragment
more (`Search.round`). The rounds end with what `Chain.resolve` gives.

What carries a search to its end is one invariant, `Search.IsOnWalk`: the
chain so far is a walk from the root, and the ids that were met are those
of its fragments. A round keeps it and makes the chain longer by one
(`IsOnWalk.round_cases`). But a walk meets distinct ids of the list
(`IsWalk.length_le`), so there are no more rounds than ids, however the
links fork, dangle or go round.
-/

namespace LayerQuery

namespace Relations

namespace Chain

variable {rootId : String} {fragments front chain : List Fragment} {last : Fragment}

/-! ## Walks are short -/

theorem IsWalk.mem_fragments (h : IsWalk rootId fragments (front ++ [last])) :
    ∀ f ∈ front ++ [last], f ∈ fragments := by
  induction front using List.reverseRecOn generalizing last with
  | nil =>
    obtain ⟨root, hroot, hfirst⟩ := h.start
    obtain rfl : last = root := Option.some.inj hroot
    simpa using hfirst.mem
  | append_singleton front f ih =>
    obtain ⟨hwalk, hleads, -⟩ := isWalk_append_iff.mp h
    rw [List.forall_mem_append, List.forall_mem_singleton]
    exact ⟨ih hwalk, hleads.mem⟩

/-- No fragment carries a filter but the last one of a walk. -/
theorem IsWalk.filter_eq_none (h : IsWalk rootId fragments (front ++ [last])) :
    ∀ f ∈ front, f.filter = none := by
  induction front using List.reverseRecOn generalizing last with
  | nil => exact fun f hf => absurd hf List.not_mem_nil
  | append_singleton front f ih =>
    obtain ⟨hwalk, hleads, -⟩ := isWalk_append_iff.mp h
    rw [List.forall_mem_append, List.forall_mem_singleton]
    exact ⟨ih hwalk, hleads.noFilter⟩

/-- The ids that there are. -/
def distinctIds (fragments : List Fragment) : List String :=
  (fragments.map Fragment.id).dedup

/-- **A walk is no longer than there are ids.** -/
theorem IsWalk.length_le (h : IsWalk rootId fragments (front ++ [last])) :
    (front ++ [last]).length ≤ (distinctIds fragments).length := by
  have hsubset : (front ++ [last]).map Fragment.id ⊆ distinctIds fragments := by
    intro id hid
    obtain ⟨f, hf, rfl⟩ := List.mem_map.mp hid
    exact List.mem_dedup.mpr (List.mem_map_of_mem (h.mem_fragments f hf))
  rw [← List.length_map Fragment.id]
  exact (List.subperm_of_subset h.distinct hsubset).length_le

/-! ## Rounds -/

/-- What a search knows between two rounds. -/
structure Search where
  /-- The chain so far. -/
  chain : List Fragment
  /-- The ids that were met. -/
  met : List String
  /-- The fragment at hand. -/
  current : Fragment

/-- What a number of rounds comes to. -/
inductive Search.Progress where
  /-- The search goes on. -/
  | goesOn (s : Search)
  /-- It ends with a chain, or with what is wrong with the links. -/
  | ends (result : Except CompileError (List Fragment))

namespace Search

/-- The search at its root, before the first round. -/
def start (root : Fragment) : Search := ⟨[root], [root.id], root⟩

/-- The search with one fragment more. -/
def take (s : Search) (next : Fragment) : Search :=
  ⟨s.chain ++ [next], next.id :: s.met, next⟩

/-- One round. -/
def round (fragments : List Fragment) (s : Search) : Progress :=
  if s.current.filter.isSome then .ends (.ok s.chain)
  else match children fragments s.current.id with
    | [] => .ends (.error (.brokenChain s.current.id .noFilter))
    | [next] =>
      if next.id ∈ s.met then .ends (.error (.brokenChain next.id .cycle))
      else .goesOn (s.take next)
    | _ :: _ :: _ => .ends (.error (.brokenChain s.current.id .fork))

/-- A number of rounds, one after the other until the search ends. -/
def rounds (fragments : List Fragment) (s : Search) : Nat → Progress
  | 0 => .goesOn s
  | n + 1 =>
    match s.round fragments with
    | .goesOn s' => rounds fragments s' n
    | .ends result => .ends result

variable {s : Search} {root next : Fragment} {result : Except CompileError (List Fragment)}

/-! ## One round -/

/-- **The state of a search**: it is on a walk from the root, stands at
the end of it, and has met the ids of its fragments and no others. -/
structure IsOnWalk (rootId : String) (fragments : List Fragment) (s : Search) : Prop where
  walk : IsWalk rootId fragments s.chain
  current : s.chain.getLast? = some s.current
  met : s.met = visited s.chain

theorem isOnWalk_start (h : IsFirst rootId fragments root) :
    (start root).IsOnWalk rootId fragments where
  walk := isWalk_singleton h
  current := rfl
  met := rfl

/-- The same, with the fragment at hand split off the walk. -/
theorem IsOnWalk.exists_front (h : s.IsOnWalk rootId fragments) :
    ∃ front, s.chain = front ++ [s.current] ∧ IsWalk rootId fragments (front ++ [s.current]) ∧
      s.met = visited (front ++ [s.current]) := by
  obtain ⟨front, hchain⟩ := List.getLast?_eq_some_iff.mp h.current
  exact ⟨front, hchain, hchain ▸ h.walk, hchain ▸ h.met⟩

theorem IsOnWalk.length_le (h : s.IsOnWalk rootId fragments) :
    s.chain.length ≤ (distinctIds fragments).length := by
  obtain ⟨front, hchain, hwalk, -⟩ := h.exists_front
  rw [hchain]
  exact hwalk.length_le

/-- What is left to do is to follow the chain from the fragment at hand
with the ids that were met. -/
theorem IsOnWalk.resolve_eq (h : s.IsOnWalk rootId fragments) :
    resolve rootId fragments =
      (follow fragments s.met s.current).map (s.chain.dropLast ++ ·) := by
  obtain ⟨front, hchain, hwalk, hmet⟩ := h.exists_front
  rw [hmet, hchain, List.dropLast_concat]
  exact resolve_eq_of_isWalk hwalk

/-- Where the fragment at hand leads to a new one, the round takes it. -/
theorem round_of_leadsTo (h : LeadsTo fragments s.current next) (hnew : next.id ∉ s.met) :
    s.round fragments = .goesOn (s.take next) := by
  rw [round, h.noFilter, h.children_eq]
  exact if_neg hnew

/-- And the search is on a walk as before. -/
theorem IsOnWalk.take (h : s.IsOnWalk rootId fragments) (hleads : LeadsTo fragments s.current next)
    (hnew : next.id ∉ s.met) : (s.take next).IsOnWalk rootId fragments := by
  obtain ⟨front, hchain, hwalk, hmet⟩ := h.exists_front
  refine ⟨?_, ?_, ?_⟩
  · rw [Search.take, hchain]
    exact isWalk_append_iff.mpr ⟨hwalk, hleads, hmet ▸ hnew⟩
  · exact List.getLast?_concat
  · rw [Search.take, hchain, visited_append_singleton, hmet]

/-- Where a walk stops at the fragment at hand, so does the round. -/
theorem round_of_stops {front : List Fragment} (hchain : s.chain = front ++ [s.current])
    (h : Stops fragments s.met s.current result) :
    s.round fragments = .ends (result.map (front ++ ·)) := by
  cases h with
  | leaf hfilter => rw [round, if_pos hfilter, hchain, Except.map]
  | noFilter hfilter hchild =>
    rw [round, hfilter, children_eq_nil hchild]
    rfl
  | fork hfilter hchild =>
    obtain ⟨g, g', rest, hchildren⟩ := exists_children_eq hchild
    rw [round, hfilter, hchildren]
    rfl
  | cycle hleads hseen =>
    rw [round, hleads.noFilter, hleads.children_eq]
    exact if_pos hseen

/-- **What one round does.** It ends the search with the chain that is
looked for, or goes on to a search that is on a walk as well. -/
theorem IsOnWalk.round_cases (h : s.IsOnWalk rootId fragments) :
    ((∃ result, Stops fragments s.met s.current result) ∧
        s.round fragments = .ends (resolve rootId fragments)) ∨
      ∃ next, s.round fragments = .goesOn (s.take next) ∧
        (s.take next).IsOnWalk rootId fragments := by
  rcases stops_or_leadsTo fragments s.met s.current with ⟨result, hstops⟩ | ⟨next, hleads, hnew⟩
  · obtain ⟨front, hchain, hwalk, hmet⟩ := h.exists_front
    refine .inl ⟨⟨result, hstops⟩, ?_⟩
    rw [round_of_stops hchain hstops, resolve_eq_of_stops hwalk (hmet ▸ hstops)]
  · exact .inr ⟨next, round_of_leadsTo hleads hnew, h.take hleads hnew⟩

/-! ## All rounds -/

theorem rounds_succ_of_goesOn {s' : Search} (h : s.round fragments = .goesOn s') (n : Nat) :
    s.rounds fragments (n + 1) = s'.rounds fragments n := by
  rw [rounds, h]

/-- **A search ends**, and stays on a walk until then. Each round leaves
fewer ids for the walk to come to. -/
theorem IsOnWalk.exists_rounds (h : s.IsOnWalk rootId fragments) :
    ∃ n last, s.chain.length + n ≤ (distinctIds fragments).length ∧
      s.rounds fragments n = .goesOn last ∧
      (∃ result, Stops fragments last.met last.current result) ∧
      s.rounds fragments (n + 1) = .ends (resolve rootId fragments) ∧
      ∀ k ≤ n, ∃ t, s.rounds fragments k = .goesOn t ∧ t.IsOnWalk rootId fragments ∧
        t.chain.length = s.chain.length + k := by
  induction hleft : (distinctIds fragments).length - s.chain.length
    using Nat.strong_induction_on generalizing s with
  | _ left ih =>
    have hshort := h.length_le
    rcases h.round_cases with ⟨hstops, hends⟩ | ⟨next, hnext, htake⟩
    · refine ⟨0, s, hshort, rfl, hstops, by rw [rounds, hends], fun k hk => ?_⟩
      obtain rfl : k = 0 := Nat.le_zero.mp hk
      exact ⟨s, rfl, h, rfl⟩
    · have hlonger : (s.take next).chain.length = s.chain.length + 1 := List.length_append
      have hshorter := htake.length_le
      obtain ⟨n, last, hbound, hlast, hstops, hends, hstates⟩ := ih _ (by omega) htake rfl
      refine ⟨n + 1, last, by omega, ?_, hstops, ?_, fun k hk => ?_⟩
      · rw [rounds_succ_of_goesOn hnext, hlast]
      · rw [rounds_succ_of_goesOn hnext, hends]
      · cases k with
        | zero => exact ⟨s, rfl, h, rfl⟩
        | succ k =>
          obtain ⟨t, ht, hwalk, hlength⟩ := hstates k (by omega)
          exact ⟨t, by rw [rounds_succ_of_goesOn hnext, ht], hwalk, by omega⟩

end Search

/-- A chain that is found ends with the only filter on it. -/
theorem exists_leaf_of_resolve_eq_ok (h : resolve rootId fragments = .ok chain) :
    ∃ front leaf, chain = front ++ [leaf] ∧ leaf.filter.isSome ∧ ∀ f ∈ front, f.filter = none := by
  obtain ⟨hwalk, filter, hleaf⟩ := resolve_eq_ok_iff.mp h
  obtain ⟨front, leaf, rfl, hfilter⟩ := exists_append_singleton_of_leafFilter hleaf
  exact ⟨front, leaf, rfl, by rw [hfilter]; rfl, hwalk.filter_eq_none⟩

open Search in
/-- **The search ends, and repeats nothing.** If there is a root, the
search that starts at it ends in no more rounds than there are ids, and
ends as a walk stops: at a filter, at a fragment without a child, at a
fork or at an id that was met. What it ends with is the chain, or what is
wrong with the links. Before each round it has met the ids of the chain
so far and no others, no id twice, and follows the chain on from there;
and each round but the last makes the chain longer by one. So a chain is
never empty, and only its last fragment carries a filter. -/
theorem resolve_in_rounds (rootId : String) (fragments : List Fragment) :
    (((∀ f ∈ fragments, f.id ≠ rootId) ∧
        resolve rootId fragments = .error (.brokenChain rootId .noRoot)) ∨
      ∃ root n last, IsFirst rootId fragments root ∧
        n + 1 ≤ (distinctIds fragments).length ∧
        (start root).rounds fragments n = .goesOn last ∧
        (∃ result, Stops fragments last.met last.current result) ∧
        (start root).rounds fragments (n + 1) = .ends (resolve rootId fragments) ∧
        ∀ k ≤ n, ∃ s, (start root).rounds fragments k = .goesOn s ∧
          s.chain.length = k + 1 ∧ s.chain.getLast? = some s.current ∧
          (∀ id, id ∈ s.met ↔ id ∈ s.chain.map Fragment.id) ∧
          (s.chain.map Fragment.id).Nodup ∧
          resolve rootId fragments =
            (follow fragments s.met s.current).map (s.chain.dropLast ++ ·)) ∧
    ∀ chain, resolve rootId fragments = .ok chain →
      ∃ front leaf, chain = front ++ [leaf] ∧ leaf.filter.isSome ∧ ∀ f ∈ front, f.filter = none := by
  refine ⟨?_, fun _ => exists_leaf_of_resolve_eq_ok⟩
  rcases forall_ne_or_exists_isFirst rootId fragments with hroot | ⟨root, hfirst⟩
  · exact .inl ⟨hroot, resolve_of_forall_ne hroot⟩
  · obtain ⟨n, last, hbound, hlast, hstops, hends, hstates⟩ := (isOnWalk_start hfirst).exists_rounds
    have hone : (start root).chain.length = 1 := rfl
    refine .inr ⟨root, n, last, hfirst, by omega, hlast, hstops, hends, fun k hk => ?_⟩
    obtain ⟨s, hs, hwalk, hlength⟩ := hstates k hk
    refine ⟨s, hs, by omega, hwalk.current, fun id => ?_, hwalk.walk.distinct, hwalk.resolve_eq⟩
    rw [hwalk.met, mem_visited]

/-- Two fragments that each lead to the other, and a root that leads to
them; one of their ids comes twice. -/
def whirl : List Fragment :=
  [⟨"root", none, 5, none, none⟩, ⟨"bay", some "root", 7, some 5, none⟩,
    ⟨"reef", some "bay", 9, some 7, none⟩, ⟨"bay", some "reef", 7, some 9, none⟩]

/-- The search comes to the three ids in two rounds, and ends with the
third; a search that is no cycle ends with a chain. -/
theorem whirl_resolve_in_rounds :
    (∃ root n, n + 1 ≤ 3 ∧
      (Search.start root).rounds whirl (n + 1) = .ends (.error (.brokenChain "bay" .cycle))) ∧
    ∃ front leaf, resolve "root" tangled = .ok (front ++ [leaf]) ∧ leaf.filter.isSome ∧
      ∀ f ∈ front, f.filter = none := by
  have hwhirl : resolve "root" whirl = .error (.brokenChain "bay" .cycle) := by decide +kernel
  have htangled := holdsTogether_tangled.resolve_eq
  constructor
  · rcases (resolve_in_rounds "root" whirl).1 with
      ⟨hroot, -⟩ | ⟨root, n, last, -, hbound, -, -, hends, -⟩
    · exact absurd rfl (hroot _ List.mem_cons_self)
    · rw [hwhirl] at hends
      exact ⟨root, n, hbound, hends⟩
  · obtain ⟨front, leaf, hchain, hleaf, hfront⟩ := (resolve_in_rounds "root" tangled).2 _ htangled
    exact ⟨front, leaf, hchain ▸ htangled, hleaf, hfront⟩

end Chain

end Relations

end LayerQuery
