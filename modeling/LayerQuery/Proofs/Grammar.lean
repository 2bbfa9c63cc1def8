import LayerQuery.Json.Reader
import LayerQuery.Number.Reading
/-!
# The grammar of JSON

Which characters spell which document, said without a reader: a numeral
is a sign, a whole part, a fraction and an exponent; a string is a row of
pieces between quotes; lists and objects are parts with commas between
them, and spaces may stand around every part. Only documents that are
closed everywhere have a spelling. A document has many of them, and
`IsTextOf` is the relation between the two.

What a string says is found piece by piece too. A code unit written by
its number is a character, unless it is one half of a pair: then the
other half has to follow at once, or the string is no text.
-/

namespace LayerQuery

/-- Digits as they are written. -/
def Digit.chars (ds : List Digit) : List Char :=
  ds.map Digit.toChar

namespace Json

/-! ## Numerals -/

/-- The sign in front of a numeral. -/
def signChars (negative : Bool) : List Char :=
  if negative then ['-'] else []

/-- A whole part: a zero alone, or digits of which the first is none. -/
inductive SpellsWhole : Nat → List Char → Prop
  | zero : SpellsWhole 0 ['0']
  | digits {d : Digit} (ds : List Digit) (h : d ≠ Digit.zero) :
    SpellsWhole (Digit.value (d :: ds)) (Digit.chars (d :: ds))

/-- A fraction: none, or a point and digits. -/
inductive SpellsFraction : List Digit → List Char → Prop
  | none : SpellsFraction [] []
  | digits (d : Digit) (ds : List Digit) : SpellsFraction (d :: ds) ('.' :: Digit.chars (d :: ds))

/-- The sign of an exponent, which may be left out or be a plus. -/
inductive SpellsSign : Bool → List Char → Prop
  | none : SpellsSign false []
  | plus : SpellsSign false ['+']
  | minus : SpellsSign true ['-']

/-- The letter that announces an exponent. -/
def IsMark (c : Char) : Prop :=
  c = 'e' ∨ c = 'E'

/-- An exponent: none, or a letter, a sign and digits. -/
inductive SpellsExponent : Option Int → List Char → Prop
  | none : SpellsExponent none []
  | digits {mark : Char} {negative : Bool} {sign : List Char} (hmark : IsMark mark)
    (hsign : SpellsSign negative sign) (d : Digit) (ds : List Digit) :
    SpellsExponent (some (signed negative (Digit.value (d :: ds))))
      (mark :: (sign ++ Digit.chars (d :: ds)))

/-- A numeral is spelled part by part. -/
inductive SpellsNumeral : Numeral → List Char → Prop
  | mk {whole : Nat} {fraction : List Digit} {exponent : Option Int} {ws fs es : List Char}
    (negative : Bool) (hwhole : SpellsWhole whole ws) (hfraction : SpellsFraction fraction fs)
    (hexponent : SpellsExponent exponent es) :
    SpellsNumeral ⟨negative, whole, fraction, exponent⟩ (signChars negative ++ (ws ++ (fs ++ es)))

/-! ## Strings -/

/-- A part of a string: a character, or a code unit by its number. -/
inductive Piece where
  | char (c : Char)
  | unit (n : Nat)

/-- A piece stands for itself, or is written by a letter or by four digits of base sixteen. -/
inductive SpellsPiece : Piece → List Char → Prop
  | plain {c : Char} (hcontrol : 0x20 ≤ c.toNat) (hquotes : c ≠ '"') (hslash : c ≠ '\\') :
    SpellsPiece (.char c) [c]
  | letter {l c : Char} (h : Chars.escaped? l = some c) : SpellsPiece (.char c) ['\\', l]
  | number {a b c d : Char} {w x y z : Nat} (ha : Chars.hexDigit? a = some w)
    (hb : Chars.hexDigit? b = some x) (hc : Chars.hexDigit? c = some y)
    (hd : Chars.hexDigit? d = some z) :
    SpellsPiece (.unit (((w * 16 + x) * 16 + y) * 16 + z)) ['\\', 'u', a, b, c, d]

/-- Pieces are spelled one after the other. -/
inductive SpellsPieces : List Piece → List Char → Prop
  | nil : SpellsPieces [] []
  | cons {p : Piece} {ps : List Piece} {front rest : List Char} (h : SpellsPiece p front)
    (hrest : SpellsPieces ps rest) : SpellsPieces (p :: ps) (front ++ rest)

/-- The first half of a pair. -/
def IsFirstHalf (n : Nat) : Prop :=
  0xD800 ≤ n ∧ n < 0xDC00

/-- The second half of a pair. -/
def IsSecondHalf (n : Nat) : Prop :=
  0xDC00 ≤ n ∧ n < 0xE000

instance (n : Nat) : Decidable (IsFirstHalf n) :=
  inferInstanceAs (Decidable (_ ∧ _))

instance (n : Nat) : Decidable (IsSecondHalf n) :=
  inferInstanceAs (Decidable (_ ∧ _))

/-- The character that two halves make. -/
def pairChar (first second : Nat) : Char :=
  Char.ofNat (0x10000 + (first - 0xD800) * 0x400 + (second - 0xDC00))

/-- The characters that pieces stand for, if every half has its other half. -/
def Piece.chars? : List Piece → Option (List Char)
  | [] => some []
  | .char c :: ps => (chars? ps).map (c :: ·)
  | .unit n :: ps =>
    if IsFirstHalf n then
      match ps with
      | .unit m :: ps => if IsSecondHalf m then (chars? ps).map (pairChar n m :: ·) else none
      | _ => none
    else if IsSecondHalf n then none
    else (chars? ps).map (Char.ofNat n :: ·)

theorem IsSecondHalf.not_isFirstHalf {n : Nat} (h : IsSecondHalf n) : ¬ IsFirstHalf n :=
  fun hfirst => absurd hfirst.2 (Nat.not_lt.mpr h.1)

namespace Piece

variable {n m : Nat}

theorem chars?_plain (hfirst : ¬ IsFirstHalf n) (hsecond : ¬ IsSecondHalf n) (ps : List Piece) :
    chars? (.unit n :: ps) = (chars? ps).map (Char.ofNat n :: ·) := by
  conv =>
    lhs
    unfold chars?
  rw [if_neg hfirst, if_neg hsecond]

theorem chars?_second (h : IsSecondHalf n) (ps : List Piece) : chars? (.unit n :: ps) = none := by
  unfold chars?
  rw [if_neg h.not_isFirstHalf, if_pos h]

theorem chars?_pair (hn : IsFirstHalf n) (hm : IsSecondHalf m) (ps : List Piece) :
    chars? (.unit n :: .unit m :: ps) = (chars? ps).map (pairChar n m :: ·) := by
  rw [chars?, if_pos hn, if_pos hm]

/-- A first half before anything else is no text. -/
theorem chars?_alone (hn : IsFirstHalf n) {p : Piece} (hp : ∀ m, p = .unit m → ¬ IsSecondHalf m)
    (ps : List Piece) : chars? (.unit n :: p :: ps) = none := by
  cases p with
  | char c => exact if_pos hn
  | unit m => rw [chars?, if_pos hn, if_neg (hp m rfl)]

end Piece

/-- A string is its pieces between quotes, and says what they stand for. -/
inductive SpellsString : Option String → List Char → Prop
  | mk {ps : List Piece} {cs : List Char} (h : SpellsPieces ps cs) :
    SpellsString ((Piece.chars? ps).map String.ofList) ('"' :: (cs ++ ['"']))

theorem SpellsString.exists_cons {t : Option String} {cs : List Char} (h : SpellsString t cs) :
    ∃ inside, cs = '"' :: inside := by
  cases h with
  | mk hps => exact ⟨_, rfl⟩

/-! ## Documents -/

/-- Nothing but spaces. -/
def IsSpaces (cs : List Char) : Prop :=
  ∀ c ∈ cs, isSpace c = true

instance (cs : List Char) : Decidable (IsSpaces cs) :=
  List.decidableBAll _ cs

theorem isSpaces_nil : IsSpaces [] :=
  fun _ hc => absurd hc List.not_mem_nil

/-- A spelling with spaces around it. -/
def Padded (spells : List Char → Prop) (cs : List Char) : Prop :=
  ∃ before body after, IsSpaces before ∧ spells body ∧ IsSpaces after ∧
    cs = before ++ (body ++ after)

/-- Spellings with commas between them and spaces around each; where there are none, spaces. -/
def Separated : List (List Char → Prop) → List Char → Prop
  | [], cs => IsSpaces cs
  | [spells], cs => Padded spells cs
  | spells :: more, cs =>
    ∃ front rest, Padded spells front ∧ Separated more rest ∧ cs = front ++ ',' :: rest

/-- A member of an object: its name, a colon and its value. -/
def SpellsMember (name : Option String) (spellsValue : List Char → Prop) (cs : List Char) : Prop :=
  ∃ front before after body, SpellsString name front ∧ IsSpaces before ∧ IsSpaces after ∧
    spellsValue body ∧ cs = front ++ (before ++ ':' :: (after ++ body))

namespace Document

mutual

/-- The characters spell the document, without spaces around it. -/
def Spells : Document → List Char → Prop
  | .null, cs => cs = "null".toList
  | .boolean b, cs => cs = if b then "true".toList else "false".toList
  | .number n, cs => SpellsNumeral n cs
  | .string s, cs => SpellsString s cs
  | .array items closed, cs =>
    closed = true ∧ ∃ body, Separated (spellsItems items) body ∧ cs = '[' :: (body ++ [']'])
  | .object members closed, cs =>
    closed = true ∧
      ∃ body, Separated (spellsMembers members) body ∧ cs = '\x7b' :: (body ++ ['\x7d'])
  | .broken, _ => False

/-- The spellings of the items of a list. -/
def spellsItems : List Document → List (List Char → Prop)
  | [] => []
  | d :: ds => Spells d :: spellsItems ds

/-- The spellings of the members of an object. -/
def spellsMembers : List (Option String × Document) → List (List Char → Prop)
  | [] => []
  | (name, d) :: ms => SpellsMember name (Spells d) :: spellsMembers ms

end

theorem spellsItems_eq_map (ds : List Document) : spellsItems ds = ds.map Spells := by
  induction ds with
  | nil => simp [spellsItems]
  | cons d ds ih => simp [spellsItems, ih]

theorem spellsMembers_eq_map (ms : List Member) :
    spellsMembers ms = ms.map fun m => SpellsMember m.1 (Spells m.2) := by
  induction ms with
  | nil => simp [spellsMembers]
  | cons m ms ih => simp [spellsMembers, ih]

/-- The text holds the document and, around it, spaces alone. -/
def IsTextOf (d : Document) (text : String) : Prop :=
  Padded (Spells d) text.toList

/-- What holds of a document when it holds of all documents in it holds
of every document. -/
@[elab_as_elim]
theorem inside_induction {P : Document → Prop} (null : P .null) (boolean : ∀ b, P (.boolean b))
    (number : ∀ n, P (.number n)) (string : ∀ s, P (.string s))
    (array : ∀ items closed, (∀ d ∈ items, P d) → P (.array items closed))
    (object : ∀ members closed, (∀ m ∈ members, P m.2) → P (.object members closed))
    (broken : P .broken) (d : Document) : P d := by
  refine @Document.rec P (fun ds => ∀ d ∈ ds, P d) (fun ms => ∀ m ∈ ms, P m.2) (fun m => P m.2)
    null boolean number string array object broken ?_ ?_ ?_ ?_ ?_ d
  · intro d hd
    exact absurd hd List.not_mem_nil
  · intro d ds hd hds
    exact List.forall_mem_cons.mpr ⟨hd, hds⟩
  · intro m hm
    exact absurd hm List.not_mem_nil
  · intro m ms hm hms
    exact List.forall_mem_cons.mpr ⟨hm, hms⟩
  · intro name d hd
    exact hd

end Document

end Json

end LayerQuery
