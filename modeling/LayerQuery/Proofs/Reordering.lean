import LayerQuery.Proofs.Walk
/-!
# Fragments in another order

A walk looks at the list of fragments in two ways. It starts at the first
fragment with the root id, and it counts the children of a fragment to go
on to the only one. Counts do not depend on the order, so neither does
any step of the walk nor the way it ends (`LeadsTo.perm`, `Stops.perm`).
What is left is the start, and that is the same fragment in every order
as soon as no second one has the root id (`IsFirst.perm`).

So the whole result stays as it is when fragments are reordered, failures
included (`combine_eq_of_perm`), whatever other ids come twice.
-/

namespace LayerQuery

namespace Relations

namespace Chain

variable {rootId id : String} {fragments fragments' walk : List Fragment} {seen : List String}
variable {f g last : Fragment}

/-- How many fragments have an id. -/
def idCount (fragments : List Fragment) (id : String) : Nat :=
  fragments.countP fun f => f.id = id

/-! ## The start -/

/-- Of the fragments with an id there is a first one. -/
theorem exists_isFirst (hf : f ∈ fragments) (hid : f.id = id) : ∃ g, IsFirst id fragments g :=
  (forall_ne_or_exists_isFirst id fragments).resolve_left fun hne => hne f hf hid

/-- Where an id comes once, it has one fragment. -/
theorem eq_of_idCount_le_one (hone : idCount fragments id ≤ 1) (hf : f ∈ fragments)
    (hfid : f.id = id) (hg : g ∈ fragments) (hgid : g.id = id) : f = g := by
  have hfilter : ∀ e ∈ fragments, e.id = id → e ∈ fragments.filter fun e => e.id = id :=
    fun e he heid => List.mem_filter.mpr ⟨he, decide_eq_true heid⟩
  have hfmem := hfilter f hf hfid
  have hgmem := hfilter g hg hgid
  rw [idCount, List.countP_eq_length_filter] at hone
  match hones : fragments.filter fun e => e.id = id with
  | [] =>
    rw [hones] at hfmem
    exact absurd hfmem List.not_mem_nil
  | [only] =>
    rw [hones, List.mem_singleton] at hfmem hgmem
    rw [hfmem, hgmem]
  | _ :: _ :: _ => simp [hones] at hone

/-- **The only fragment with an id is the first one in any order.** -/
theorem IsFirst.perm (h : IsFirst id fragments f) (hone : idCount fragments id ≤ 1)
    (hperm : fragments.Perm fragments') : IsFirst id fragments' f := by
  obtain ⟨g, hg⟩ := exists_isFirst (hperm.mem_iff.mp h.mem) h.1
  rw [eq_of_idCount_le_one hone h.mem h.1 (hperm.mem_iff.mpr hg.mem) hg.1]
  exact hg

/-! ## The steps -/

theorem childCount_perm (hperm : fragments.Perm fragments') (id : String) :
    childCount fragments id = childCount fragments' id :=
  hperm.countP_eq _

/-- One step leads on in any order. -/
theorem LeadsTo.perm (h : LeadsTo fragments f g) (hperm : fragments.Perm fragments') :
    LeadsTo fragments' f g where
  noFilter := h.noFilter
  mem := hperm.mem_iff.mp h.mem
  parent := h.parent
  only := by rw [← childCount_perm hperm, h.only]

/-- And a walk ends in one way, whatever the order. -/
theorem Stops.perm {result : Except CompileError (List Fragment)}
    (h : Stops fragments seen last result) (hperm : fragments.Perm fragments') :
    Stops fragments' seen last result := by
  cases h with
  | leaf hfilter => exact .leaf hfilter
  | noFilter hfilter hchild => exact .noFilter hfilter (by rw [← childCount_perm hperm, hchild])
  | fork hfilter hchild => exact .fork hfilter (by rw [← childCount_perm hperm]; exact hchild)
  | cycle hleads hseen => exact .cycle (hleads.perm hperm) hseen

/-- A walk is one in any order that leaves its start the first. -/
theorem IsWalk.perm (h : IsWalk rootId fragments walk) (hone : idCount fragments rootId ≤ 1)
    (hperm : fragments.Perm fragments') : IsWalk rootId fragments' walk := by
  obtain ⟨root, hroot, hfirst⟩ := h.start
  exact ⟨⟨root, hroot, hfirst.perm hone hperm⟩, h.steps.imp fun _ _ hleads => hleads.perm hperm,
    h.distinct⟩

/-! ## The result -/

theorem resolve_eq_of_perm (hone : idCount fragments rootId ≤ 1)
    (hperm : fragments.Perm fragments') :
    resolve rootId fragments = resolve rootId fragments' := by
  rcases resolve_cases rootId fragments with
    ⟨hroot, heq⟩ | ⟨front, last, result, hwalk, hstops, heq⟩
  · rw [heq, resolve_of_forall_ne fun f hf => hroot f (hperm.mem_iff.mpr hf)]
  · rw [heq, resolve_eq_of_stops (hwalk.perm hone hperm) (hstops.perm hperm)]

/-- **The order of fragments does not matter** where at most one of them
has the root id. They combine to one text in every order, or break at one
id and for one reason, though other ids come twice, parents are missing
and links fork or go round. -/
theorem combine_eq_of_perm (hone : idCount fragments rootId ≤ 1)
    (hperm : fragments.Perm fragments') :
    combine rootId fragments = combine rootId fragments' := by
  rw [combine, combine, resolve_eq_of_perm hone hperm]

-- with two roots it does: the first one is taken
example : combine "root" [⟨"root", none, 5, none, some "a"⟩, ⟨"root", none, 6, none, some "b"⟩] ≠
    combine "root" [⟨"root", none, 6, none, some "b"⟩, ⟨"root", none, 5, none, some "a"⟩] := by
  decide +kernel

/-- The links of a chain, the leaf first, among those of a fork whose two
ends have one id and whose parent is missing. -/
def scattered : List Fragment :=
  [⟨"leaf", some "middle", 9, some 7, some "\"x\" = 1"⟩, ⟨"twig", some "fork", 4, some 2, none⟩,
    ⟨"middle", some "root", 7, some 5, none⟩, ⟨"twig", some "fork", 3, some 2, none⟩,
    ⟨"root", none, 5, none, none⟩, ⟨"fork", some "stem", 2, some 1, none⟩]

/-- Backwards the chain is the same, and the fork breaks in the same place. -/
theorem combine_reverse_scattered :
    idCount scattered "root" ≤ 1 ∧ idCount scattered "fork" ≤ 1 ∧
    scattered.Perm scattered.reverse ∧
    combine "root" scattered.reverse =
      .ok "RELATED_LAYER(5, 7, RELATED_LAYER(7, 9, \"x\" = 1))" ∧
    combine "fork" scattered.reverse = .error (.brokenChain "fork" .fork) := by
  have hroot : idCount scattered "root" ≤ 1 := by decide
  have hfork : idCount scattered "fork" ≤ 1 := by decide
  have hperm : scattered.Perm scattered.reverse := (List.reverse_perm _).symm
  refine ⟨hroot, hfork, hperm, ?_, ?_⟩
  · rw [← combine_eq_of_perm hroot hperm]
    decide +kernel
  · rw [← combine_eq_of_perm hfork hperm]
    decide +kernel

end Chain

end Relations

end LayerQuery
