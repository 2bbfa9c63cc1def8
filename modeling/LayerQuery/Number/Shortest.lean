import LayerQuery.Number.Binary64
/-!
# The fewest digits that read back

`shortest` is the decimal with the fewest digits among those that are
read as the given magnitude, and of those the nearest to it. The exact
magnitude is a decimal too (`exact`), so the candidates of a given
number of digits are its two neighbours after a cut: the digits kept,
and the next number above. Whether a candidate reads back is asked of
the reading function itself, and the exact decimal stands behind the
search, so that what is returned always reads back. Which of two equally
near candidates is taken is up to the caller.
-/

namespace LayerQuery

/-- Which of two equally near neighbours is taken. -/
inductive Tie where
  /-- The neighbour whose last digit is even. -/
  | even
  /-- The larger neighbour. -/
  | up
  deriving DecidableEq, Repr

namespace Binary64

/-- A magnitude as a decimal, without rounding: a unit is `5 ^ 1074 * 10 ^ -1074`. -/
def exact (rank : Nat) : Decimal :=
  ⟨units rank * Nat.pow 5 1074, -1074⟩

/-- The upper neighbour comes first when it is nearer, or equally near and preferred. -/
def upperFirst (tie : Tie) (lower rest step : Nat) : Bool :=
  step < 2 * rest || (2 * rest == step && (tie == .up || lower % 2 == 1))

/-- The two neighbours of a decimal on the grid that drops its last `cut` digits, the preferred one
first. -/
def neighbours (tie : Tie) (d : Decimal) (cut : Nat) : List Decimal :=
  let step := tenPow cut
  let lower := d.coefficient / step
  let below : Decimal := ⟨lower, d.exponent + cut⟩
  let above : Decimal := ⟨lower + 1, d.exponent + cut⟩
  if upperFirst tie lower (d.coefficient % step) step then [above, below] else [below, above]

/-- The decimal with the fewest digits that reads back as the magnitude of a rank, and the nearest
of those; it does not end in zero. -/
def shortest (tie : Tie) (rank : Nat) : Decimal :=
  let d := exact rank
  let digits := decimalLength d.coefficient
  let found := (List.range 17).findSome? fun p =>
    (neighbours tie d (digits - (p + 1))).find? fun c => rankOfDecimal c == rank
  (found.getD d).strip

end Binary64

end LayerQuery
