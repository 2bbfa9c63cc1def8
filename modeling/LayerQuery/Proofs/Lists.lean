import Mathlib.Data.List.Forall2
/-!
# Lists of results, and lists that come apart

Five kinds of facts about lists that the theory leans on. A list of
results succeeds as a whole exactly when each member does. A list that
is put together around a mark comes apart at that mark again, when what
stands before it could not have held it. A list that is stripped at
both ends is what was taken off with what is left between. A key that
comes once is looked up in any order. And what a search finds was not
found any earlier.
-/

namespace LayerQuery

/-! ## One result for each member of a list -/

section Results

variable {α β ε : Type} {f : α → Except ε β}

/-- A result that was gone on with succeeded. -/
theorem eq_ok_of_bind_eq_ok {x : Except ε α} {g : α → Except ε β} {b : β}
    (h : x.bind g = .ok b) : ∃ a, x = .ok a ∧ g a = .ok b := by
  cases x with
  | error e => cases h
  | ok a => exact ⟨a, rfl, h⟩

theorem eq_ok_of_map_eq_ok {x : Except ε α} {g : α → β} {b : β} (h : x.map g = .ok b) :
    ∃ a, x = .ok a ∧ b = g a := by
  cases x with
  | error e => cases h
  | ok a => exact ⟨a, rfl, (Except.ok.inj h).symm⟩

theorem eq_ok_of_mapError_eq_ok {δ : Type} {x : Except ε α} {g : ε → δ} {a : α}
    (h : x.mapError g = .ok a) : x = .ok a := by
  cases x with
  | error e => cases h
  | ok a' => rw [Except.ok.inj h]

theorem map_eq_error_iff {x : Except ε α} {g : α → β} {e : ε} :
    x.map g = .error e ↔ x = .error e := by
  cases x with
  | error e' => simp only [Except.map, Except.error.injEq]
  | ok a => simp only [Except.map, reduceCtorEq]

/-- What does not fail succeeds. -/
theorem exists_eq_ok_iff {x : Except ε α} : (∃ a, x = .ok a) ↔ ∀ e, x ≠ .error e := by
  cases x with
  | error e => exact iff_of_false (by simp) fun h => h e rfl
  | ok a => exact iff_of_true ⟨a, rfl⟩ (by simp)

/-- A list of results succeeds as a whole when each of them does. -/
theorem mapM_eq_ok_iff {xs : List α} {ys : List β} :
    xs.mapM f = .ok ys ↔ List.Forall₂ (fun x y => f x = .ok y) xs ys := by
  induction xs generalizing ys with
  | nil => simp [pure, Except.pure, eq_comm]
  | cons x xs ih =>
    rw [List.mapM_cons, List.forall₂_cons_left_iff]
    constructor
    · intro h
      obtain ⟨y, hy, h⟩ := eq_ok_of_bind_eq_ok h
      obtain ⟨rest, hrest, h⟩ := eq_ok_of_bind_eq_ok h
      exact ⟨y, rest, hy, ih.mp hrest, (Except.ok.inj h).symm⟩
    · rintro ⟨y, rest, hy, hrest, rfl⟩
      rw [hy, ih.mpr hrest]
      rfl

/-- Each success is that of a member. -/
theorem exists_of_mem_of_forall₂ {R : α → β → Prop} {xs : List α} {ys : List β}
    (h : List.Forall₂ R xs ys) {y : β} (hy : y ∈ ys) : ∃ x ∈ xs, R x y := by
  induction h with
  | nil => exact absurd hy List.not_mem_nil
  | cons hxy _ ih =>
    rcases List.mem_cons.mp hy with rfl | hy
    · exact ⟨_, List.mem_cons_self, hxy⟩
    · obtain ⟨x, hx, hR⟩ := ih hy
      exact ⟨x, List.mem_cons_of_mem _ hx, hR⟩

theorem map_ok_eq_map {xs : List α} {ys : List β}
    (h : List.Forall₂ (fun x y => f x = .ok y) xs ys) : ys.map .ok = xs.map f := by
  induction h with
  | nil => rfl
  | cons hxy _ ih => rw [List.map_cons, List.map_cons, ih, hxy]

/-- Otherwise it fails as the first of them does that fails. -/
theorem mapM_eq_error_iff {xs : List α} {e : ε} :
    xs.mapM f = .error e ↔ ∃ front x rest, xs = front ++ x :: rest ∧
      (∀ y ∈ front, ∃ b, f y = .ok b) ∧ f x = .error e := by
  induction xs with
  | nil => simp [pure, Except.pure]
  | cons x xs ih =>
    rw [List.mapM_cons]
    cases hx : f x with
    | error e' =>
      constructor
      · intro h
        obtain rfl := Except.error.inj h
        exact ⟨[], x, xs, rfl, by simp, hx⟩
      · rintro ⟨front, y, rest, hxs, hfront, hy⟩
        cases front with
        | nil =>
          obtain ⟨rfl, -⟩ := List.cons.inj hxs
          rw [Except.error.inj (hx.symm.trans hy)]
          rfl
        | cons z front =>
          obtain ⟨rfl, -⟩ := List.cons.inj hxs
          obtain ⟨b, hb⟩ := hfront x List.mem_cons_self
          cases hx.symm.trans hb
    | ok b =>
      have hgo : (do let bs ← xs.mapM f; pure (b :: bs)) = .error e ↔ xs.mapM f = .error e :=
        map_eq_error_iff
      refine hgo.trans (ih.trans ?_)
      constructor
      · rintro ⟨front, y, rest, rfl, hfront, hy⟩
        exact ⟨x :: front, y, rest, rfl, List.forall_mem_cons.mpr ⟨⟨b, hx⟩, hfront⟩, hy⟩
      · rintro ⟨front, y, rest, hxs, hfront, hy⟩
        cases front with
        | nil =>
          obtain ⟨rfl, -⟩ := List.cons.inj hxs
          cases hx.symm.trans hy
        | cons z front =>
          obtain ⟨rfl, rfl⟩ := List.cons.inj hxs
          exact ⟨front, y, rest, rfl, (List.forall_mem_cons.mp hfront).2, hy⟩

theorem exists_of_mapM_eq_error {xs : List α} {e : ε} (h : xs.mapM f = .error e) :
    ∃ x ∈ xs, f x = .error e := by
  obtain ⟨front, x, rest, rfl, -, hx⟩ := mapM_eq_error_iff.mp h
  exact ⟨x, List.mem_append_right _ List.mem_cons_self, hx⟩

/-- It succeeds as a whole when each of them does, whatever comes of them. -/
theorem exists_mapM_eq_ok_iff {xs : List α} :
    (∃ ys, xs.mapM f = .ok ys) ↔ ∀ x ∈ xs, ∃ y, f x = .ok y := by
  induction xs with
  | nil => simp [pure, Except.pure]
  | cons x xs ih =>
    rw [List.forall_mem_cons, ← ih]
    constructor
    · rintro ⟨ys, hys⟩
      obtain ⟨y, rest, hy, hrest, -⟩ := List.forall₂_cons_left_iff.mp (mapM_eq_ok_iff.mp hys)
      exact ⟨⟨y, hy⟩, rest, mapM_eq_ok_iff.mpr hrest⟩
    · rintro ⟨⟨y, hy⟩, rest, hrest⟩
      exact ⟨y :: rest, mapM_eq_ok_iff.mpr (.cons hy (mapM_eq_ok_iff.mp hrest))⟩

theorem bind_ok_eq_error_iff {x : Except ε α} {g : α → β} {e : ε} :
    (x.bind fun a => .ok (g a)) = .error e ↔ x = .error e := by
  cases x with
  | error e' => simp only [Except.bind, Except.error.injEq]
  | ok a => simp only [Except.bind, reduceCtorEq]

end Results

/-! ## Lists that part at a mark -/

section Parting

variable {α : Type} {front front' rest rest' : List α} {mark mark' : α}

/-- Two lists that are whole before a mark, and are not whole any more
with the mark, part at the same place. -/
theorem eq_and_eq_of_append_cons (IsWhole : List α → Prop)
    (hfront : IsWhole front) (hfront' : IsWhole front')
    (hmark : ∀ more, ¬ IsWhole (front ++ mark :: more))
    (hmark' : ∀ more, ¬ IsWhole (front' ++ mark' :: more))
    (h : front ++ mark :: rest = front' ++ mark' :: rest') : front = front' ∧ rest = rest' := by
  rcases List.append_eq_append_iff.mp h with ⟨more, hmore, hrest⟩ | ⟨more, hmore, hrest⟩
  · cases more with
    | nil => exact ⟨by rw [hmore, List.append_nil], (List.cons.inj hrest).2⟩
    | cons m more =>
      rw [hmore, ← (List.cons.inj hrest).1] at hfront'
      exact absurd hfront' (hmark more)
  · cases more with
    | nil => exact ⟨by rw [hmore, List.append_nil], (List.cons.inj hrest).2.symm⟩
    | cons m more =>
      rw [hmore, ← (List.cons.inj hrest).1] at hfront
      exact absurd hfront (hmark' more)

/-- So do lists that do not hold the mark before it. -/
theorem eq_and_eq_of_append_cons_of_not_mem (hfront : mark ∉ front) (hfront' : mark ∉ front')
    (h : front ++ mark :: rest = front' ++ mark :: rest') : front = front' ∧ rest = rest' :=
  eq_and_eq_of_append_cons (mark ∉ ·) hfront hfront'
    (fun _ hnot => hnot (List.mem_append_right _ List.mem_cons_self))
    (fun _ hnot => hnot (List.mem_append_right _ List.mem_cons_self)) h

/-- Lists that hold marks part at the same mark, or one of them at a later
mark than the other. -/
theorem append_cons_eq_append_cons_iff :
    front ++ mark :: rest = front' ++ mark :: rest' ↔
      (front = front' ∧ rest = rest') ∨
      (∃ between, front' = front ++ mark :: between ∧ rest = between ++ mark :: rest') ∨
      ∃ between, front = front' ++ mark :: between ∧ rest' = between ++ mark :: rest := by
  constructor
  · intro h
    rcases List.append_eq_append_iff.mp h with ⟨more, hmore, hrest⟩ | ⟨more, hmore, hrest⟩
    · cases more with
      | nil => exact .inl ⟨by rw [hmore, List.append_nil], (List.cons.inj hrest).2⟩
      | cons m between =>
        obtain ⟨rfl, htail⟩ := List.cons.inj hrest
        exact .inr (.inl ⟨between, hmore, htail⟩)
    · cases more with
      | nil => exact .inl ⟨by rw [hmore, List.append_nil], (List.cons.inj hrest).2.symm⟩
      | cons m between =>
        obtain ⟨rfl, htail⟩ := List.cons.inj hrest
        exact .inr (.inr ⟨between, hmore, htail⟩)
  · rintro (⟨rfl, rfl⟩ | ⟨between, rfl, rfl⟩ | ⟨between, rfl, rfl⟩)
    · rfl
    · rw [List.append_assoc, List.cons_append]
    · rw [List.append_assoc, List.cons_append]

end Parting

/-! ## Lists that are stripped at both ends -/

/-- What is taken off a list are members that it begins or ends with. -/
theorem exists_eq_append_stripped {α : Type} (p : α → Bool) (xs : List α) :
    ∃ front back, xs = front ++ (((xs.dropWhile p).reverse.dropWhile p).reverse ++ back) ∧
      (∀ x ∈ front, x ∈ xs.takeWhile p) ∧ ∀ x ∈ back, x ∈ xs.reverse.takeWhile p := by
  let rest := xs.dropWhile p
  have hxs : xs = xs.takeWhile p ++ rest := List.takeWhile_append_dropWhile.symm
  have hrest : rest = (rest.reverse.dropWhile p).reverse ++ (rest.reverse.takeWhile p).reverse := by
    rw [← List.reverse_append, List.takeWhile_append_dropWhile, List.reverse_reverse]
  refine ⟨xs.takeWhile p, (rest.reverse.takeWhile p).reverse, ?_, fun x hx => hx, fun x hx => ?_⟩
  · rw [← hrest]
    exact hxs
  · -- the rest ends as the whole list does
    rw [hxs, List.reverse_append, List.takeWhile_append]
    split
    · exact List.mem_append_left _ (List.takeWhile_subset _ (List.mem_reverse.mp hx))
    · exact List.mem_reverse.mp hx

/-! ## Lookup in any order -/

section Lookup

variable {α β : Type} [BEq α] [LawfulBEq α] {es es' : List (α × β)} {a : α} {b : β}

/-- A key that comes once at most is looked up wherever it stands. -/
theorem lookup_eq_some_iff_mem (hcount : (es.map Prod.fst).count a ≤ 1) :
    es.lookup a = some b ↔ (a, b) ∈ es := by
  induction es with
  | nil => simp
  | cons e es ih =>
    obtain ⟨found, c⟩ := e
    by_cases heq : found = a
    · subst heq
      have habsent : found ∉ es.map Prod.fst := by
        rw [← List.count_eq_zero]
        rw [List.map_cons, List.count_cons_self] at hcount
        omega
      have hnot : (found, b) ∉ es := fun h => habsent (List.mem_map_of_mem h)
      simp [hnot, eq_comm]
    · have hne : (a == found) = false := beq_eq_false_iff_ne.mpr (Ne.symm heq)
      rw [List.map_cons, List.count_cons_of_ne heq] at hcount
      rw [List.lookup_cons, hne, ih hcount, List.mem_cons]
      constructor
      · exact .inr
      · rintro (h | h)
        · exact absurd (Prod.mk.inj h).1.symm heq
        · exact h

theorem lookup_perm (h : es.Perm es') (hcount : (es.map Prod.fst).count a ≤ 1) :
    es'.lookup a = es.lookup a := by
  have hcount' : (es'.map Prod.fst).count a ≤ 1 := by
    rw [← (h.map Prod.fst).count_eq]
    exact hcount
  refine Option.ext fun d => ?_
  rw [lookup_eq_some_iff_mem hcount, lookup_eq_some_iff_mem hcount']
  exact h.symm.mem_iff

end Lookup

/-! ## What is found first -/

/-- Of two, the second is found only if the first is not. -/
theorem find?_pair_eq_some {α : Type} {p : α → Bool} {a b d : α} (h : [a, b].find? p = some d) :
    d = a ∧ p a = true ∨ d = b ∧ p b = true ∧ ¬ p a = true := by
  rw [List.find?_cons] at h
  split at h
  · next ha => exact .inl ⟨(Option.some.inj h).symm, ha⟩
  · next ha =>
    have hb := List.find?_some h
    have hmem := List.mem_singleton.mp (List.mem_of_find?_eq_some h)
    exact .inr ⟨hmem, hmem ▸ hb, by simp [ha]⟩

/-- A search through numbers finds what is found at the first of them, which
is no later than any at which something is found. -/
theorem exists_findSome?_range {α : Type} {f : Nat → Option α} {n last : Nat} (hlast : last < n)
    (h : f last ≠ none) : ∃ first d, first ≤ last ∧ f first = some d ∧
      (List.range n).findSome? f = some d ∧ ∀ p < first, f p = none := by
  have hsome : ((List.range n).findSome? f).isSome = true := by
    rw [List.findSome?_isSome_iff]
    exact ⟨last, List.mem_range.mpr hlast, Option.isSome_iff_ne_none.mpr h⟩
  obtain ⟨d, hd⟩ := Option.isSome_iff_exists.mp hsome
  obtain ⟨before, first, after, hrange, hfirst, hnone⟩ := List.findSome?_eq_some_iff.mp hd
  have hbefore : ∀ p < first, f p = none := by
    intro p hp
    have hsorted : (List.range n).Pairwise (· < ·) := List.pairwise_lt_range
    have hmem : first ∈ List.range n := by rw [hrange]; simp
    have hin : p ∈ List.range n := List.mem_range.mpr (Nat.lt_trans hp (List.mem_range.mp hmem))
    rw [hrange] at hsorted hin
    have hafter : ∀ q ∈ after, first < q :=
      (List.pairwise_cons.mp (List.pairwise_append.mp hsorted).2.1).1
    rcases List.mem_append.mp hin with hin | hin
    · exact hnone p hin
    · rcases List.mem_cons.mp hin with rfl | hin
      · omega
      · exact absurd (hafter p hin) (by omega)
  refine ⟨first, d, ?_, hfirst, hd, hbefore⟩
  by_contra hlt
  exact h (hbefore last (Nat.not_le.mp hlt))

end LayerQuery
