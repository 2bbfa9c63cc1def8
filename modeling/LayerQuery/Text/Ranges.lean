/-!
# Sets of code points

A property of characters that Unicode defines by a table is kept as the
ascending list of the code points at which the set begins or ends. A code
point is in the set when an odd number of these bounds do not exceed it.
-/

namespace LayerQuery

namespace Text

/-- Whether a code point is in the set that begins at the first bound, ends before the second,
begins again at the third, and so on. -/
def inRanges : List Nat → Nat → Bool
  | [], _ => false
  | bound :: bounds, n => decide (bound ≤ n) && !inRanges bounds n

end Text

end LayerQuery
