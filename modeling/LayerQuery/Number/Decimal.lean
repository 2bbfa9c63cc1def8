import LayerQuery.Number.Power
/-!
# Decimal digits and numerals

A `Digit` is one of ten, a `Decimal` is a natural number scaled by a
power of ten, and a `Numeral` is a number as it is spelled: sign, whole
part, the digits after the point, and the exponent if one is written.
`Numeral.text` writes it down and `Numeral.magnitude` is the decimal it
denotes up to its sign. Every number that the library reads or writes
passes through these three.
-/

namespace LayerQuery

/-- A decimal digit. -/
abbrev Digit := Fin 10

namespace Digit

/-- The digit nought. -/
def zero : Digit := ⟨0, by decide⟩

/-- The digit a character is: `0` to `9` of ASCII and no other. -/
def ofChar? (c : Char) : Option Digit :=
  if h : 48 ≤ c.toNat ∧ c.toNat ≤ 57 then some ⟨c.toNat - 48, by omega⟩ else none

/-- The character that shows a digit. -/
def toChar (d : Digit) : Char :=
  Char.ofNat (48 + d.val)

@[simp] theorem ofChar?_toChar : ∀ d : Digit, ofChar? d.toChar = some d := by
  decide

/-- The number that digits spell, the most significant first. -/
def value (ds : List Digit) : Nat :=
  ds.foldl (fun n d => n * 10 + d.val) 0

/-- The last `places` digits of `n`, the most significant first. -/
def lastDigits : Nat → Nat → List Digit
  | 0, _ => []
  | places + 1, n => lastDigits places (n / 10) ++ [⟨n % 10, Nat.mod_lt _ (by decide)⟩]

@[simp] theorem length_lastDigits (places n : Nat) : (lastDigits places n).length = places := by
  induction places generalizing n with
  | zero => rfl
  | succ places ih => simp [lastDigits, ih]

end Digit

/-- How many digits the decimal form of `n` has; zero has one. -/
def decimalLength (n : Nat) : Nat :=
  (Nat.toDigits 10 n).length

/-- The decimal form of an integer, with a minus sign below zero. -/
def integerText (n : Int) : String :=
  (if n < 0 then "-" else "") ++ Nat.repr n.natAbs

/-- The integers of a signed word of 64 bits. -/
def inWord (n : Int) : Bool :=
  -(twoPow 63 : Int) ≤ n && n < twoPow 63

/-- The number `coefficient * 10 ^ exponent`. -/
structure Decimal where
  coefficient : Nat
  exponent : Int
  deriving DecidableEq, Repr

namespace Decimal

/-- The zeros at the end of the coefficient moved into the exponent, as far as `fuel` allows. -/
def stripUpTo : Nat → Decimal → Decimal
  | 0, d => d
  | fuel + 1, d =>
    if d.coefficient ≠ 0 ∧ d.coefficient % 10 = 0 then
      stripUpTo fuel ⟨d.coefficient / 10, d.exponent + 1⟩
    else d

/-- The same number with a coefficient that does not end in zero. -/
def strip (d : Decimal) : Decimal :=
  stripUpTo (decimalLength d.coefficient) d

/-- The power of ten of the leading digit: `e` in `d.ddd * 10 ^ e`. -/
def leading (d : Decimal) : Int :=
  d.exponent + decimalLength d.coefficient - 1

end Decimal

/-- A number as it is spelled. No digits after the point means that there is no point either. -/
structure Numeral where
  negative : Bool
  whole : Nat
  fraction : List Digit
  exponent : Option Int
  deriving DecidableEq, Repr

namespace Numeral

/-- The decimal that a numeral denotes, its sign aside. -/
def magnitude (n : Numeral) : Decimal where
  coefficient := n.whole * tenPow n.fraction.length + Digit.value n.fraction
  exponent := n.exponent.getD 0 - n.fraction.length

/-- The written form of an exponent; its sign is always shown. -/
def exponentText : Option Int → String
  | none => ""
  | some e => if e < 0 then "e-" ++ Nat.repr e.natAbs else "e+" ++ Nat.repr e.natAbs

/-- The written form of the digits after the point. -/
def fractionText (ds : List Digit) : String :=
  if ds.isEmpty then "" else String.ofList ('.' :: ds.map Digit.toChar)

/-- The written form of a numeral. -/
def text (n : Numeral) : String :=
  (if n.negative then "-" else "") ++ Nat.repr n.whole ++ fractionText n.fraction ++
    exponentText n.exponent

/-- The numeral that writes a decimal without an exponent. -/
def positional (negative : Bool) (d : Decimal) : Numeral :=
  match d.exponent with
  | .ofNat k => ⟨negative, d.coefficient * tenPow k, [], none⟩
  | .negSucc k =>
    ⟨negative, d.coefficient / tenPow (k + 1), Digit.lastDigits (k + 1) d.coefficient, none⟩

/-- The numeral that writes a decimal with one digit before the point and an exponent. -/
def scientific (negative : Bool) (d : Decimal) : Numeral :=
  let places := decimalLength d.coefficient - 1
  ⟨negative, d.coefficient / tenPow places, Digit.lastDigits places d.coefficient, some d.leading⟩

end Numeral

end LayerQuery
