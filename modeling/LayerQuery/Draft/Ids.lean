/-!
# Ids for new parts

New conditions and groups get ids from one counter, whatever stem is put
in front of the number, so that no two ids end in the same number before
the counter has gone through all words of 64 bits.
-/

namespace LayerQuery

namespace Draft

/-- Where new ids come from. -/
structure IdSource where
  next : UInt64
  deriving DecidableEq, Repr

namespace IdSource

/-- Before the first id. -/
def start : IdSource := ⟨0⟩

/-- The next id with a stem, and where the ids after it come from. -/
def issue (s : IdSource) (stem : String) : String × IdSource :=
  (stem ++ "-" ++ Nat.repr s.next.toNat, ⟨s.next + 1⟩)

/-- The stem of the ids of conditions. -/
def conditionStem : String := "criteria"

/-- The stem of the ids of groups. -/
def groupStem : String := "criteria-group"

end IdSource

end Draft

end LayerQuery
