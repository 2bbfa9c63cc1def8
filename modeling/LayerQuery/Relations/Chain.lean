import LayerQuery.Compile.Error
import LayerQuery.Relations.Fragment
/-!
# Chains of fragments

Fragments come in any order and are put into a chain by their parent
links, from the first fragment with the root id down to the first one on
the way that carries a filter. On the way each fragment must have exactly
one child, and no id may come twice, which is also why the walk ends: the
fragments whose id has not been seen become fewer with every step.

The chain is then folded into one filter, from the leaf outwards, each
step wrapping the filter of the child in a call that names the feature
types of both. Here the feature type that a child names for its parent is
compared with the one the parent has.
-/

namespace LayerQuery

namespace Relations

namespace Chain

/-- The fragments that name a parent. -/
def children (fragments : List Fragment) (id : String) : List Fragment :=
  fragments.filter fun f => f.parentId = some id

/-- The fragments whose id has not been seen. -/
def unseen (fragments : List Fragment) (seen : List String) : List Fragment :=
  fragments.filter fun f => f.id ∉ seen

/-- One more id that some fragment has leaves fewer fragments unseen. -/
theorem length_unseen_lt {fragments : List Fragment} {seen : List String} {f : Fragment}
    (hf : f ∈ fragments) (hseen : f.id ∉ seen) :
    (unseen fragments (f.id :: seen)).length < (unseen fragments seen).length := by
  have hsub : unseen fragments (f.id :: seen) =
      (unseen fragments seen).filter fun g => g.id ≠ f.id := by
    simp only [unseen, List.filter_filter]
    congr 1
    funext g
    simp [Bool.decide_and]
  rw [hsub, List.length_filter_lt_length_iff_exists]
  exact ⟨f, by simp [unseen, hf, hseen], by simp⟩

/-- The chain from a fragment down to the first one that carries a filter, the ids in `seen` not
being allowed on the way. -/
def follow (fragments : List Fragment) (seen : List String) (current : Fragment) :
    Except CompileError (List Fragment) :=
  if current.filter.isSome then .ok [current]
  else match _ : children fragments current.id with
    | [] => .error (.brokenChain current.id .noFilter)
    | [next] =>
      if _ : next.id ∈ seen then .error (.brokenChain next.id .cycle)
      else (follow fragments (next.id :: seen) next).map (current :: ·)
    | _ :: _ :: _ => .error (.brokenChain current.id .fork)
termination_by (unseen fragments seen).length
decreasing_by
  have hmem : next ∈ children fragments current.id := by simp [*]
  exact length_unseen_lt (List.mem_filter.mp hmem).1 ‹_›

/-- The chain that starts with the first fragment that has the root id. -/
def resolve (rootId : String) (fragments : List Fragment) :
    Except CompileError (List Fragment) :=
  match fragments.find? fun f => f.id = rootId with
  | none => .error (.brokenChain rootId .noRoot)
  | some root => follow fragments [root.id] root

/-- The filter of a child as a filter on its parent. -/
def throughParent (parent child : FeatureTypeId) (filter : String) : String :=
  "RELATED_LAYER(" ++ integerText parent.toInt ++ ", " ++ integerText child.toInt ++ ", " ++
    filter ++ ")"

/-- The filter of a chain, folded from the leaf outwards. -/
def wrap : List Fragment → Except CompileError String
  | [] => .ok ""
  | [leaf] => .ok (leaf.filter.getD "")
  | parent :: child :: rest => do
    let filter ← wrap (child :: rest)
    if child.parentType = some parent.featureType then
      .ok (throughParent parent.featureType child.featureType filter)
    else .error (.brokenChain child.id .typeMismatch)

/-- The filter of the chain that starts with the root id. -/
def combine (rootId : String) (fragments : List Fragment) : Except CompileError String :=
  (resolve rootId fragments).bind wrap

end Chain

end Relations

end LayerQuery
