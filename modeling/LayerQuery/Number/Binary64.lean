import LayerQuery.Number.Decimal
/-!
# Binary floating-point numbers of 64 bits

The finite magnitudes of the format, in ascending order, are numbered
`0, 1, 2, …`; a `Binary64` is a sign and such a rank, an infinity, or
not a number. The magnitude of a rank is a whole number of `units`, one
unit being the smallest positive magnitude, `2 ^ -1074`. The first
`2 ^ 53` ranks are one unit apart and each later run of `2 ^ 52` doubles
the distance, so that rounding (`nearestRank`) is one formula on natural
numbers: a quotient rounded to an even neighbour in case of a tie.
-/

namespace LayerQuery

/-- The quotient rounded to the nearest whole number, a half to the even one. -/
def roundHalfEven (numerator denominator : Nat) : Nat :=
  let quotient := numerator / denominator
  let twice := 2 * (numerator % denominator)
  if twice < denominator then quotient
  else if denominator < twice then quotient + 1
  else quotient + quotient % 2

namespace Binary64

/-- The distance between magnitudes is constant over this many ranks. -/
def binade : Nat := twoPow 52

/-- One is this many units. -/
def unitsOfOne : Nat := twoPow 1074

/-- How many finite magnitudes there are. -/
def count : Nat := 2047 * twoPow 52

/-- The magnitude of a rank, in units: `2 ^ 52` ranks keep one distance, the next ones double it. -/
def units (rank : Nat) : Nat :=
  let doublings := rank / binade - 1
  (rank - doublings * binade) * twoPow doublings

/-- The rank of the magnitude nearest to `numerator / denominator` units, an even rank in case of a
tie. A rank of `count` or more says that the magnitude is too large. -/
def nearestRank (numerator denominator : Nat) : Nat :=
  let doublings := (numerator / denominator).log2 - 52
  doublings * binade + roundHalfEven numerator (denominator * twoPow doublings)

/-- The rank of the magnitude nearest to a decimal. Decimals far beyond either end of the format are
decided by their number of digits, without computing the power of ten. -/
def rankOfDecimal (d : Decimal) : Nat :=
  if d.coefficient = 0 then 0
  else if 400 < d.leading then count
  else if d.leading < -400 then 0
  else match d.exponent with
    | .ofNat k => nearestRank (d.coefficient * tenPow k * unitsOfOne) 1
    | .negSucc k => nearestRank (d.coefficient * unitsOfOne) (tenPow (k + 1))

end Binary64

/-- A binary floating-point number of 64 bits. -/
inductive Binary64 where
  /-- A finite number: its sign, and the rank of its magnitude. -/
  | finite (negative : Bool) (rank : Fin Binary64.count)
  /-- An infinity of either sign. -/
  | infinite (negative : Bool)
  /-- Not a number. -/
  | nan
  deriving DecidableEq, Repr

namespace Binary64

/-- The number of a sign and a rank; ranks past the last are infinite. -/
def ofRank (negative : Bool) (rank : Nat) : Binary64 :=
  if h : rank < count then .finite negative ⟨rank, h⟩ else .infinite negative

/-- The number nearest to a signed decimal. -/
def ofDecimal (negative : Bool) (d : Decimal) : Binary64 :=
  ofRank negative (rankOfDecimal d)

/-- The number nearest to the value of a numeral. -/
def ofNumeral (n : Numeral) : Binary64 :=
  ofDecimal n.negative n.magnitude

/-- Neither infinite nor undefined. -/
def isFinite : Binary64 → Bool
  | .finite _ _ => true
  | _ => false

/-- The integer that a number equals, if it equals one. -/
def toInt? : Binary64 → Option Int
  | .finite negative rank =>
    let u := units rank
    if u % unitsOfOne = 0 then
      some (if negative then -(u / unitsOfOne : Nat) else (u / unitsOfOne : Nat))
    else none
  | _ => none

/-- The integer that a number equals, if it equals one whose absolute value is below `bound`. -/
def toIntBelow? (bound : Nat) (x : Binary64) : Option Int :=
  x.toInt?.filter fun n => n.natAbs < bound

end Binary64

end LayerQuery
