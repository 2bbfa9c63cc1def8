import LayerQuery.Number.Shortest
/-!
# Spelling of floating-point numbers

Two spellings are in use, both with the shortest digits that read back,
and each is one value of `Spelling`. A stored document writes small and
large magnitudes with an exponent, and always shows that a number is not
an integer literal by a point or an exponent. A query writes all
magnitudes positionally, and no point where the number is whole.
-/

namespace LayerQuery

/-- The decisions that fix the written form of a finite number. -/
structure Spelling where
  /-- Which of two equally short and equally near decimals is written. -/
  tie : Tie
  /-- The powers of ten of the leading digit that are written without an exponent; none means all. -/
  positional : Option (Int × Int)
  /-- Whether a whole number without exponent gets the digit `0` after a point. -/
  pointed : Bool
  deriving DecidableEq, Repr

namespace Spelling

/-- In documents, an exponent is written below `0.00001` and from `10 ^ 16` on. -/
def document : Spelling := ⟨.even, some (-5, 15), true⟩

/-- In queries, no exponent is ever written. -/
def query : Spelling := ⟨.up, none, false⟩

/-- A numeral that shows digits after a point. -/
def point (n : Numeral) : Numeral :=
  if n.fraction.isEmpty then { n with fraction := [Digit.zero] } else n

/-- The numeral that spells a finite number. -/
def numeral (s : Spelling) (negative : Bool) (rank : Nat) : Numeral :=
  let d := if rank = 0 then ⟨0, 0⟩ else Binary64.shortest s.tie rank
  let plain := Numeral.positional negative d
  match s.positional with
  | some (low, high) =>
    if rank ≠ 0 ∧ (d.leading < low ∨ high < d.leading) then Numeral.scientific negative d
    else if s.pointed then point plain else plain
  | none => if s.pointed then point plain else plain

end Spelling

namespace Binary64

/-- The numeral that stands for a number in a document; numbers that are not finite have none. -/
def numeral? : Binary64 → Option Numeral
  | .finite negative rank => some (Spelling.document.numeral negative rank)
  | _ => none

/-- The written form of a number in a query. -/
def queryText : Binary64 → String
  | .finite negative rank => (Spelling.query.numeral negative rank).text
  | .infinite negative => if negative then "-inf" else "inf"
  | .nan => "NaN"

/-- The written form of a number in a message about a document. -/
def documentText : Binary64 → String
  | .finite negative rank => (Spelling.document.numeral negative rank).text
  | .infinite negative => if negative then "-inf" else "inf"
  | .nan => "NaN"

end Binary64

end LayerQuery
