import LayerQuery.Proofs.Lists
import LayerQuery.Proofs.Numerals
import LayerQuery.Relations.Chain
/-!
# Chains that were laid

`Fragment.lay` numbers the fragments of a chain and links each to the
one before it; `Chain.combine` knows nothing of that and finds the chain
again by the links alone. This file shows that it always does, for
chains of any length and with any repetition of feature types
(`combine_lay`): the numbers are told apart by their decimal forms, so
every fragment but the leaf has exactly one child and no id comes twice.
What is found is the filter inside one call for each hop of the path,
which `nested` says without fragments or ids.
-/

namespace LayerQuery

namespace Relations

/-! ## Nested calls -/

/-- The hops of a path, the outermost first. -/
def hops (path : List FeatureTypeId) : List (FeatureTypeId × FeatureTypeId) :=
  path.zip path.tail

/-- The call that asks for a filter through one hop. -/
def hopCall (hop : FeatureTypeId × FeatureTypeId) (inner : String) : String :=
  String.join
    ["RELATED_LAYER(", integerText hop.1.toInt, ", ", integerText hop.2.toInt, ", ", inner, ")"]

/-- A filter inside one call for each hop of a path. -/
def nested (path : List FeatureTypeId) (filter : String) : String :=
  (hops path).foldr hopCall filter

@[simp] theorem nested_singleton (t : FeatureTypeId) (filter : String) :
    nested [t] filter = filter := rfl

@[simp] theorem nested_cons_cons (p c : FeatureTypeId) (path : List FeatureTypeId)
    (filter : String) :
    nested (p :: c :: path) filter = hopCall (p, c) (nested (c :: path) filter) := by
  simp [nested, hops]

/-- What the chain writes for a hop is its call. -/
theorem throughParent_eq (p c : FeatureTypeId) (inner : String) :
    Chain.throughParent p c inner = hopCall (p, c) inner := by
  unfold Chain.throughParent hopCall
  generalize integerText p.toInt = parentText
  generalize integerText c.toInt = childText
  simp only [String.join_cons, String.join_nil, String.append_assoc, String.append_empty]

/-! ## Calls are told apart

A call can be taken apart again: its two numbers end at the first comma
after each, since a number holds none, and the rest up to the last
parenthesis is what the call asks for. -/

theorem toList_hopCall (p c : FeatureTypeId) (inner : String) :
    (hopCall (p, c) inner).toList = "RELATED_LAYER(".toList ++
      ((integerText p.toInt).toList ++ ',' :: (' ' :: ((integerText c.toInt).toList ++
        ',' :: (' ' :: (inner.toList ++ [')']))))) := by
  unfold hopCall
  generalize integerText p.toInt = parentText
  generalize integerText c.toInt = childText
  simp [String.toList_append]

theorem comma_not_mem_integerText (n : Int) : ',' ∉ (integerText n).toList := fun h =>
  absurd (isNumeralChar_of_mem_integerText h) (by decide)

/-- **A call determines its hop and what it asks for.** -/
theorem hopCall_injective {p c p' c' : FeatureTypeId} {inner inner' : String}
    (h : hopCall (p, c) inner = hopCall (p', c') inner') :
    p = p' ∧ c = c' ∧ inner = inner' := by
  have hlist := congrArg String.toList h
  rw [toList_hopCall, toList_hopCall] at hlist
  obtain ⟨hp, hrest⟩ := eq_and_eq_of_append_cons_of_not_mem (comma_not_mem_integerText _)
    (comma_not_mem_integerText _) (List.append_cancel_left hlist)
  obtain ⟨hc, hinner⟩ := eq_and_eq_of_append_cons_of_not_mem (comma_not_mem_integerText _)
    (comma_not_mem_integerText _) (List.cons.inj hrest).2
  have hin : inner.toList = inner'.toList :=
    List.append_cancel_right (List.cons.inj hinner).2
  exact ⟨Int64.toInt_inj.mp (integerText_injective (String.toList_inj.mp hp)),
    Int64.toInt_inj.mp (integerText_injective (String.toList_inj.mp hc)),
    String.toList_inj.mp hin⟩

/-- A call is longer than what it asks for. -/
theorem length_lt_hopCall (hop : FeatureTypeId × FeatureTypeId) (inner : String) :
    inner.toList.length < (hopCall hop inner).toList.length := by
  rw [toList_hopCall]
  simp only [List.length_append, List.length_cons]
  omega

theorem length_le_nested (path : List FeatureTypeId) (filter : String) :
    filter.toList.length ≤ (nested path filter).toList.length := by
  have hfold : ∀ hs : List (FeatureTypeId × FeatureTypeId),
      filter.toList.length ≤ (hs.foldr hopCall filter).toList.length := by
    intro hs
    induction hs with
    | nil => exact Nat.le_refl _
    | cons hop hs ih => exact Nat.le_trans ih (Nat.le_of_lt (length_lt_hopCall hop _))
  exact hfold (hops path)

/-- A filter behind a hop is never the filter itself. -/
theorem nested_cons_cons_ne (p c : FeatureTypeId) (path : List FeatureTypeId)
    (filter : String) : nested (p :: c :: path) filter ≠ filter := by
  intro h
  have hle := length_le_nested (c :: path) filter
  have hlt := length_lt_hopCall (p, c) (nested (c :: path) filter)
  rw [← nested_cons_cons, h] at hlt
  omega

/-- **One filter on two paths reads differently** as soon as one of the
paths has a hop: where one path ends before the other, a call would have
to be as short as what it asks for. -/
theorem nested_injective {path path' : List FeatureTypeId} {filter : String} (hne : path ≠ [])
    (hne' : path' ≠ []) (hhop : 1 < path.length ∨ 1 < path'.length)
    (h : nested path filter = nested path' filter) : path = path' := by
  induction path generalizing path' with
  | nil => exact absurd rfl hne
  | cons p path ih =>
    rcases path with - | ⟨c, path⟩
    · rcases path' with - | ⟨p', - | ⟨c', path'⟩⟩
      · exact absurd rfl hne'
      · simp at hhop
      · exact absurd h.symm (nested_cons_cons_ne p' c' path' filter)
    · rcases path' with - | ⟨p', - | ⟨c', path'⟩⟩
      · exact absurd rfl hne'
      · exact absurd h (nested_cons_cons_ne p c path filter)
      · rw [nested_cons_cons, nested_cons_cons] at h
        obtain ⟨rfl, rfl, hinner⟩ := hopCall_injective h
        by_cases hmore : 1 < (c :: path).length ∨ 1 < (c :: path').length
        · rw [ih (List.cons_ne_nil _ _) (List.cons_ne_nil _ _) hmore hinner]
        · -- both paths end here
          simp only [List.length_cons] at hmore
          have hnil : path = [] := List.length_eq_zero_iff.mp (by omega)
          have hnil' : path' = [] := List.length_eq_zero_iff.mp (by omega)
          rw [hnil, hnil']

/-! ## Ids and links of a laid chain -/

namespace Fragment

/-- **Ids are told apart by their numbers.** -/
theorem idOf_injective {m n : Nat} (h : idOf m = idOf n) : m = n := by
  have hrepr : Nat.repr m = Nat.repr n := by simpa [idOf, String.append_right_inj] using h
  exact Nat.repr_injective hrepr

variable (filter : String) (source : FeatureTypeId)

/-- The chain from some place on is never empty, and it starts with the
fragment of that place. -/
theorem exists_cons_layFrom (n : Nat) (parentType : Option FeatureTypeId)
    (types : List FeatureTypeId) :
    ∃ first rest, layFrom filter source n parentType types = first :: rest ∧
      first.id = idOf n ∧ first.parentId = parentType.map (fun _ => idOf (n - 1)) ∧
      first.parentType = parentType ∧ some first.featureType = (types ++ [source]).head? := by
  cases types with
  | nil => exact ⟨_, _, rfl, rfl, rfl, rfl, rfl⟩
  | cons t types => exact ⟨_, _, rfl, rfl, rfl, rfl, rfl⟩

/-- The fragments are numbered one after the other. -/
theorem map_id_layFrom (n : Nat) (parentType : Option FeatureTypeId) (types : List FeatureTypeId) :
    (layFrom filter source n parentType types).map Fragment.id =
      (List.range' n (types.length + 1)).map idOf := by
  induction types generalizing n parentType with
  | nil => rfl
  | cons t types ih =>
    rw [layFrom, List.map_cons, ih, List.length_cons, List.range'_succ]
    rfl

theorem map_id_lay (types : List FeatureTypeId) :
    (lay filter types source).map Fragment.id = (List.range (types.length + 1)).map idOf := by
  rw [lay, map_id_layFrom, List.range_eq_range']

theorem length_lay (types : List FeatureTypeId) :
    (lay filter types source).length = types.length + 1 := by
  rw [← List.length_map Fragment.id, map_id_lay, List.length_map, List.length_range]

/-- Below place `n` no fragment is a child of one above it. -/
theorem children_layFrom_of_lt {m n : Nat} (h : m < n) (t : FeatureTypeId)
    (types : List FeatureTypeId) :
    Chain.children (layFrom filter source (n + 1) (some t) types) (idOf m) = [] := by
  induction types generalizing n t with
  | nil =>
    have hne : idOf n ≠ idOf m := fun he => by have := idOf_injective he; omega
    simp [layFrom, Chain.children, place, hne]
  | cons u types ih =>
    have hne : idOf n ≠ idOf m := fun he => by have := idOf_injective he; omega
    have hrest := @ih (n + 1) (by omega) u
    simp only [Chain.children] at hrest
    simp [layFrom, Chain.children, place, hne, hrest]

/-- **The only child is the next fragment.** -/
theorem children_layFrom_succ {filter : String} {source : FeatureTypeId} {n : Nat}
    {t : FeatureTypeId} {types : List FeatureTypeId} {first : Fragment} {rest : List Fragment}
    (h : layFrom filter source (n + 1) (some t) types = first :: rest) :
    Chain.children (first :: rest) (idOf n) = [first] := by
  cases types with
  | nil =>
    simp only [layFrom, List.cons.injEq] at h
    obtain ⟨rfl, rfl⟩ := h
    simp [Chain.children, place]
  | cons u types =>
    simp only [layFrom, List.cons.injEq] at h
    obtain ⟨rfl, rfl⟩ := h
    have hrest := children_layFrom_of_lt filter source (Nat.lt_succ_self n) u types
    simp only [Chain.children] at hrest
    simp [Chain.children, place, hrest]

end Fragment

/-! ## The walk and the fold -/

namespace Chain

open Fragment

variable {filter : String} {source : FeatureTypeId}

/-- One step of the walk down a chain. -/
theorem follow_step (fragments : List Fragment) (seen : List String) (current : Fragment) :
    follow fragments seen current =
      if current.filter.isSome then .ok [current]
      else match children fragments current.id with
        | [] => .error (.brokenChain current.id .noFilter)
        | [next] =>
          if next.id ∈ seen then .error (.brokenChain next.id .cycle)
          else (follow fragments (next.id :: seen) next).map (current :: ·)
        | _ :: _ :: _ => .error (.brokenChain current.id .fork) := by
  rw [follow]
  split
  · rfl
  · split
    · next hchildren => rw [hchildren]
    · next hchildren => rw [hchildren]; rfl
    · next hchildren => rw [hchildren]

/-- **The walk down a laid chain finds all of it.** From place `n` on,
the list looks to the walk like the chain from there (`hchildren`), and
no id from below has been seen. -/
theorem follow_layFrom {all : List Fragment} {types : List FeatureTypeId} {n : Nat}
    {parentType : Option FeatureTypeId} {seen : List String} {first : Fragment}
    {rest : List Fragment}
    (hlay : layFrom filter source n parentType types = first :: rest)
    (hchildren : ∀ m, n ≤ m → children all (idOf m) = children rest (idOf m))
    (hseen : ∀ m, n < m → idOf m ∉ seen) :
    follow all seen first = .ok (first :: rest) := by
  induction types generalizing n parentType seen first rest with
  | nil =>
    simp only [layFrom, List.cons.injEq] at hlay
    obtain ⟨rfl, rfl⟩ := hlay
    rw [follow_step]
    rfl
  | cons t types ih =>
    simp only [layFrom, List.cons.injEq] at hlay
    obtain ⟨rfl, rfl⟩ := hlay
    obtain ⟨next, after, hnext, hid, hlink, -, -⟩ :=
      exists_cons_layFrom filter source (n + 1) (some t) types
    rw [hnext] at hchildren ⊢
    have honly : children all (idOf n) = [next] := by
      rw [hchildren n (Nat.le_refl n), children_layFrom_succ hnext]
    have hunseen : next.id ∉ seen := by
      rw [hid]
      exact hseen (n + 1) (Nat.lt_succ_self n)
    -- below the next fragment its own link is of no account any more
    have hafter : ∀ m, n + 1 ≤ m → children all (idOf m) = children after (idOf m) := by
      intro m hm
      have hne : idOf n ≠ idOf m := fun he => by have := idOf_injective he; omega
      rw [hchildren m (by omega)]
      simp [children, hlink, hne]
    have hseen' : ∀ m, n + 1 < m → idOf m ∉ next.id :: seen := by
      intro m hm hmem
      rcases List.mem_cons.mp hmem with heq | hmem
      · rw [hid] at heq
        have := idOf_injective heq
        omega
      · exact hseen m (by omega) hmem
    rw [follow_step, if_neg (by simp [place]), place, honly]
    simp only [if_neg hunseen, ih hnext hafter hseen', Except.map]

/-- **A laid chain folds to nested calls.** -/
theorem wrap_layFrom (filter : String) (source : FeatureTypeId) (types : List FeatureTypeId)
    (n : Nat) (parentType : Option FeatureTypeId) :
    wrap (layFrom filter source n parentType types) = .ok (nested (types ++ [source]) filter) := by
  induction types generalizing n parentType with
  | nil => rfl
  | cons t types ih =>
    obtain ⟨next, after, hnext, -, -, hparent, htype⟩ :=
      exists_cons_layFrom filter source (n + 1) (some t) types
    have hrest := ih (n + 1) (some t)
    rw [hnext] at hrest
    rw [layFrom, hnext, wrap, hrest, hparent]
    cases types with
    | nil =>
      obtain rfl : next.featureType = source := by simpa using htype
      simp [place, throughParent_eq, bind, Except.bind]
    | cons u types =>
      obtain rfl : next.featureType = u := by simpa using htype
      simp [place, throughParent_eq, bind, Except.bind]

/-- **What was laid is found again.** -/
theorem combine_lay (filter : String) (relatedTo : List FeatureTypeId) (source : FeatureTypeId) :
    combine (idOf 0) (lay filter relatedTo source) =
      .ok (nested (relatedTo ++ [source]) filter) := by
  obtain ⟨root, rest, hlay, hid, hlink, -, -⟩ :=
    exists_cons_layFrom filter source 0 none relatedTo
  have hfind : resolve (idOf 0) (lay filter relatedTo source) =
      follow (root :: rest) [root.id] root := by
    simp [resolve, lay, hlay, hid]
  have hchildren : ∀ m, 0 ≤ m → children (root :: rest) (idOf m) = children rest (idOf m) := by
    intro m _
    simp [children, hlink]
  have hseen : ∀ m, 0 < m → idOf m ∉ [root.id] := by
    intro m hm hmem
    rw [List.mem_singleton, hid] at hmem
    have := idOf_injective hmem
    omega
  have hwrap := wrap_layFrom filter source relatedTo 0 none
  rw [combine, hfind, follow_layFrom hlay hchildren hseen, ← hwrap, hlay]
  rfl

example : nested [5, 7, 9] "\"x\" = 1" =
    "RELATED_LAYER(5, 7, RELATED_LAYER(7, 9, \"x\" = 1))" := by decide

end Chain

end Relations

end LayerQuery
