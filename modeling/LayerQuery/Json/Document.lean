import LayerQuery.Number.Binary64
/-!
# JSON documents, whole or cut short

A `Document` is what a text says up to the point where it stops being
JSON. A list or an object that the text leaves open is marked as not
closed and holds the parts that came before; a member whose value never
came has the value `broken`. Only the last part of anything can be cut,
so whoever walks a document from its first part to its last meets what
is wrong with the text at its place among what is wrong with the data.

A string that contains half of a surrogate pair is no text; it is kept
as `none`, since a value that nobody looks at may hold such a string.

A number is kept as it is spelled. What the reader of numbers makes of a
literal that is no integer of 64 bits is given from outside (`Rounding`):
a fast reader may be off by the last place where a careful one rounds to
the nearest number.
-/

namespace LayerQuery

namespace Json

/-- What a text says, as far as it is JSON. -/
inductive Document where
  | null
  | boolean (value : Bool)
  | number (numeral : Numeral)
  /-- A string; without a text if it holds an unpaired surrogate. -/
  | string (text : Option String)
  /-- The items of a list, and whether its closing bracket was reached. -/
  | array (items : List Document) (closed : Bool)
  /-- The members of an object in the order of the text, and whether its closing brace was
  reached. -/
  | object (members : List (Option String × Document)) (closed : Bool)
  /-- No value could be made out. -/
  | broken

/-- A member of an object: its name and its value. -/
abbrev Member := Option String × Document

namespace Document

/-- The document of a text. -/
def ofText (s : String) : Document :=
  .string (some s)

/-- The document of an integer. -/
def ofInt (n : Int) : Document :=
  .number ⟨decide (n < 0), n.natAbs, [], none⟩

/-- The document of a complete list. -/
def list (items : List Document) : Document :=
  .array items true

/-- The document of a complete object. -/
def record (members : List (String × Document)) : Document :=
  .object (members.map fun m => (some m.1, m.2)) true

end Document

/-- The kinds of number that a numeral can stand for. -/
inductive Number where
  /-- An integer literal that fits a word of 64 bits, signed or unsigned. -/
  | integer (value : Int)
  /-- Any other literal, as the floating-point number that it is rounded to. -/
  | real (value : Binary64)
  deriving DecidableEq

/-- The integer that a numeral spells without point or exponent. A zero with a minus sign is not
one: as an integer it would lose the sign. -/
def integerOfNumeral? (n : Numeral) : Option Int :=
  if n.fraction.isEmpty && n.exponent.isNone then
    if n.negative then
      if 0 < n.whole ∧ n.whole ≤ twoPow 63 then some (-(n.whole : Int)) else none
    else if n.whole < twoPow 64 then some n.whole else none
  else none

/-- How the reader of numbers rounds the literals that are no integers of 64 bits. It refuses those
that it rounds to no finite number. -/
class Rounding where
  round : Numeral → Binary64

/-- Where nothing else is said, literals are rounded to the nearest number. -/
instance Rounding.toNearest : Rounding := ⟨Binary64.ofNumeral⟩

/-- The number that a numeral stands for; one too large for the floating-point format has none. -/
def numberOfNumeral? [Rounding] (n : Numeral) : Option Number :=
  match integerOfNumeral? n with
  | some i => some (.integer i)
  | none =>
    let x := Rounding.round n
    if x.isFinite then some (.real x) else none

/-- A numeral as a floating-point number, which is the nearest one if the numeral is an integer of
64 bits. -/
def realOfNumeral [Rounding] (n : Numeral) : Binary64 :=
  match integerOfNumeral? n with
  | some _ => Binary64.ofNumeral n
  | none => Rounding.round n

@[simp] theorem realOfNumeral_eq (n : Numeral) : realOfNumeral n = Binary64.ofNumeral n := by
  unfold realOfNumeral
  split <;> rfl

namespace Document

/-! ## Soundness

Where a value is taken whole, whatever it is, all of it must hold: every
list and object closed, every string a text and every number in range. -/

section

variable [Rounding]

mutual

/-- Nothing in the document is cut short, unpaired or out of range. -/
def isSound : Document → Bool
  | .null => true
  | .boolean _ => true
  | .number n => (numberOfNumeral? n).isSome
  | .string s => s.isSome
  | .array items closed => allSound items && closed
  | .object members closed => membersSound members && closed
  | .broken => false

/-- All items are sound. -/
def allSound : List Document → Bool
  | [] => true
  | d :: ds => d.isSound && allSound ds

/-- All names are texts and all values sound. -/
def membersSound : List (Option String × Document) → Bool
  | [] => true
  | (name, d) :: ms => name.isSome && d.isSound && membersSound ms

end

theorem allSound_eq_all (ds : List Document) : allSound ds = ds.all isSound := by
  induction ds with
  | nil => simp [allSound]
  | cons d ds ih => simp [allSound, ih]

theorem membersSound_eq_all (ms : List Member) :
    membersSound ms = ms.all fun m => m.1.isSome && m.2.isSound := by
  induction ms with
  | nil => simp [membersSound]
  | cons m ms ih => simp [membersSound, ih]

end

/-! ## Depth

Values are taken from a document to a limited depth. Below the limit a
list or an object counts as cut short right after its opening bracket,
which is no loss to a value that nobody looks at. -/

mutual

/-- The document with every list and object emptied and left open that lies inside `depth`
others. -/
def within : Nat → Document → Document
  | 0, .array _ _ => .array [] false
  | 0, .object _ _ => .object [] false
  | depth + 1, .array items closed => .array (allWithin depth items) closed
  | depth + 1, .object members closed => .object (membersWithin depth members) closed
  | _, d => d

/-- The same of each item. -/
def allWithin : Nat → List Document → List Document
  | _, [] => []
  | depth, d :: ds => within depth d :: allWithin depth ds

/-- The same of each value. -/
def membersWithin : Nat → List (Option String × Document) → List (Option String × Document)
  | _, [] => []
  | depth, (name, d) :: ms => (name, within depth d) :: membersWithin depth ms

end

theorem allWithin_eq_map (depth : Nat) (ds : List Document) :
    allWithin depth ds = ds.map (within depth) := by
  induction ds with
  | nil => simp [allWithin]
  | cons d ds ih => simp [allWithin, ih]

theorem membersWithin_eq_map (depth : Nat) (ms : List Member) :
    membersWithin depth ms = ms.map fun m => (m.1, within depth m.2) := by
  induction ms with
  | nil => simp [membersWithin]
  | cons m ms ih => simp [membersWithin, ih]

end Document

end Json

end LayerQuery
