import LayerQuery.Number.Binary64
import LayerQuery.Text.Blank
/-!
# Numbers typed as text

A value for a numeric attribute may come as text. `readInteger?` takes an
optional sign and decimal digits, and only what fits a signed 64-bit
word. `readNumber?` takes an optional sign and either digits with at most
one point among or around them and an optional exponent, or the names of
the infinities and of the undefined number in any letter case. Both read
the whole text; blanks around it are the caller's affair.
-/

namespace LayerQuery

/-- An optional sign taken off the front; the flag says that it was a minus. -/
def splitSign : List Char → Bool × List Char
  | '-' :: cs => (true, cs)
  | '+' :: cs => (false, cs)
  | cs => (false, cs)

/-- An integer from its sign and its absolute value. -/
def signed (negative : Bool) (n : Nat) : Int :=
  if negative then -(n : Int) else n

namespace Digit

/-- The digits at the front of a text, and what follows them. -/
def split : List Char → List Digit × List Char
  | [] => ([], [])
  | c :: cs =>
    match ofChar? c with
    | some d => (d :: (split cs).1, (split cs).2)
    | none => ([], c :: cs)

/-- The digits that make up a whole text; an empty text has none. -/
def all? (cs : List Char) : Option (List Digit) :=
  match split cs with
  | (d :: ds, []) => some (d :: ds)
  | _ => none

end Digit

/-- The integer that a text spells, where it fits a signed word. -/
def readInteger? (s : String) : Option Int :=
  let (negative, body) := splitSign s.toList
  ((Digit.all? body).map fun ds => signed negative (Digit.value ds)).filter inWord

/-- The exponent that ends a number; a number may end without one. -/
def readExponent? : List Char → Option Int
  | [] => some 0
  | c :: cs =>
    if c = 'e' ∨ c = 'E' then
      let (negative, body) := splitSign cs
      (Digit.all? body).map fun ds => signed negative (Digit.value ds)
    else none

/-- The digits after a point, if a point follows, and what is left. -/
def splitFraction : List Char → List Digit × List Char
  | '.' :: cs => Digit.split cs
  | cs => ([], cs)

/-- The numeral that an unsigned text spells. -/
def readNumeral? (negative : Bool) (cs : List Char) : Option Numeral :=
  let (whole, afterWhole) := Digit.split cs
  let (fraction, afterFraction) := splitFraction afterWhole
  if whole.isEmpty && fraction.isEmpty then none
  else (readExponent? afterFraction).map fun e => ⟨negative, Digit.value whole, fraction, some e⟩

/-- The floating-point number that a text spells, rounded to the nearest. -/
def readNumber? (s : String) : Option Binary64 :=
  let (negative, body) := splitSign s.toList
  let word := body.map Text.lowerChar
  if word = "inf".toList ∨ word = "infinity".toList then some (.infinite negative)
  else if word = "nan".toList then some .nan
  else (readNumeral? negative body).map Binary64.ofNumeral

end LayerQuery
