import LayerQuery.Proofs.Leaf
import Mathlib.Data.List.Infix
/-!
# A match looks for the text itself

What a pattern asks of a subject is said here without the compiler: the
pattern is read into its parts (`parts?`), in which an escaped character
stands for itself, and a subject fits the parts or does not (`Fits`).

The pattern of a test is always well formed, since the character that
escapes never ends it: each one stands before the character it was put
in front of (`parts?_escaped`). Its parts are the characters of the text
and nothing else, with an open end before or behind them. So the subjects
that fit are those that hold the text where the operator looks for it,
whatever wildcards and backslashes the text is made of
(`finds_of_sql_eq_ok`).
-/

namespace LayerQuery

namespace Sql

/-! ## Patterns as the backend reads them -/

/-- What a part of a pattern asks for. -/
inductive PatternPart where
  /-- This character and no other. -/
  | only (c : Char)
  /-- One character, whatever it is. -/
  | one
  /-- Any number of characters, or none. -/
  | many
  deriving DecidableEq, Repr

/-- The part that a character is where nothing escapes it. -/
def PatternPart.ofChar (c : Char) : PatternPart :=
  if c = '%' then .many else if c = '_' then .one else .only c

/-- The parts of a pattern. It has none where the character that escapes
stands at the end and there is nothing to escape. -/
def parts? (escape : Char) : List Char → Option (List PatternPart)
  | [] => some []
  | [c] => if c = escape then none else some [.ofChar c]
  | c :: d :: cs =>
    if c = escape then (parts? escape cs).map (.only d :: ·)
    else (parts? escape (d :: cs)).map (.ofChar c :: ·)

/-- A subject is what the parts of a pattern ask for, from its first
character to its last. -/
def Fits : List PatternPart → List Char → Prop
  | [], subject => subject = []
  | .only c :: parts, subject => ∃ rest, subject = c :: rest ∧ Fits parts rest
  | .one :: parts, subject => ∃ c rest, subject = c :: rest ∧ Fits parts rest
  | .many :: parts, subject => ∃ front rest, subject = front ++ rest ∧ Fits parts rest

instance Fits.decidable : (parts : List PatternPart) → (subject : List Char) →
    Decidable (Fits parts subject)
  | [], subject => inferInstanceAs (Decidable (subject = []))
  | .only _ :: _, [] => isFalse fun ⟨_, h, _⟩ => List.cons_ne_nil _ _ h.symm
  | .only c :: parts, d :: rest =>
    have := Fits.decidable parts rest
    decidable_of_iff (d = c ∧ Fits parts rest) (by simp [Fits])
  | .one :: _, [] => isFalse fun ⟨_, _, h, _⟩ => List.cons_ne_nil _ _ h.symm
  | .one :: parts, c :: rest =>
    have := Fits.decidable parts rest
    decidable_of_iff (Fits parts rest) (by simp [Fits])
  | .many :: parts, subject =>
    have := Fits.decidable parts
    decidable_of_iff (∃ rest ∈ subject.tails, Fits parts rest) (by
      simp only [List.mem_tails, List.IsSuffix, Fits]
      constructor
      · rintro ⟨rest, ⟨front, rfl⟩, hrest⟩
        exact ⟨front, rest, rfl, hrest⟩
      · rintro ⟨front, rest, rfl, hrest⟩
        exact ⟨rest, ⟨front, rfl⟩, hrest⟩)

/-! ## The parts of a pattern -/

theorem parts?_cons_of_ne {escape c : Char} (h : c ≠ escape) (cs : List Char) :
    parts? escape (c :: cs) = (parts? escape cs).map (.ofChar c :: ·) := by
  cases cs with
  | nil => simp only [parts?, if_neg h, Option.map_some]
  | cons d cs => rw [parts?, if_neg h]

/-- **The escaped text is made of its own characters**, each of which
asks for itself. -/
theorem parts?_escaped (text rest : List Char) :
    parts? '\\' (text.flatMap Pattern.escapeChar ++ rest) =
      (parts? '\\' rest).map (text.map PatternPart.only ++ ·) := by
  induction text with
  | nil => simp
  | cons c text ih =>
    -- whatever is escaped is taken together with the backslash before it
    have hchar : ∀ cs, parts? '\\' (Pattern.escapeChar c ++ cs) =
        (parts? '\\' cs).map (.only c :: ·) := by
      intro cs
      rw [Pattern.escapeChar]
      split
      · rw [List.cons_append, List.singleton_append, parts?, if_pos rfl]
      · next hplain =>
        rw [not_or, not_or] at hplain
        rw [List.singleton_append, parts?_cons_of_ne hplain.1, PatternPart.ofChar,
          if_neg hplain.2.1, if_neg hplain.2.2]
    rw [List.flatMap_cons, List.append_assoc, hchar, ih, Option.map_map]
    rfl

/-- The part of an open side. -/
def openPart (isOpen : Bool) : List PatternPart :=
  if isOpen then [.many] else []

/-- The parts of a pattern that the compiler writes. -/
def Pattern.parts (p : Pattern) : List PatternPart :=
  openPart p.openStart ++ (p.text.toList.map PatternPart.only ++ openPart p.openEnd)

/-- **The pattern is well formed**, and these are its parts. -/
theorem Pattern.parts?_chars (p : Pattern) : parts? '\\' p.chars = some p.parts := by
  have hwildcard : ∀ isOpen, parts? '\\' (wildcard isOpen) = some (openPart isOpen) := by decide
  rw [Pattern.chars, Pattern.parts]
  cases p.openStart with
  | false =>
    rw [wildcard, if_neg Bool.false_ne_true, List.nil_append, parts?_escaped, hwildcard]
    rfl
  | true =>
    rw [wildcard, if_pos rfl, List.singleton_append, List.cons_append,
      parts?_cons_of_ne (by decide), parts?_escaped, hwildcard]
    rfl

/-! ## What fits -/

theorem fits_many (subject : List Char) : Fits [.many] subject :=
  ⟨subject, [], (List.append_nil subject).symm, rfl⟩

/-- Characters that ask for themselves fit what begins with them. -/
theorem fits_only_append_iff {text : List Char} {parts : List PatternPart} {subject : List Char} :
    Fits (text.map PatternPart.only ++ parts) subject ↔
      ∃ rest, subject = text ++ rest ∧ Fits parts rest := by
  induction text generalizing subject with
  | nil => simp
  | cons c text ih =>
    simp only [List.map_cons, List.cons_append, Fits, ih]
    constructor
    · rintro ⟨rest, rfl, rest', rfl, hrest⟩
      exact ⟨rest', rfl, hrest⟩
    · rintro ⟨rest, rfl, hrest⟩
      exact ⟨text ++ rest, rfl, rest, rfl, hrest⟩

theorem fits_openPart_iff {isOpen : Bool} {subject : List Char} :
    Fits (openPart isOpen) subject ↔ (isOpen = false → subject = []) := by
  cases isOpen with
  | false => simp [openPart, Fits]
  | true => simpa [openPart] using fits_many subject

theorem fits_openPart_append_iff {isOpen : Bool} {parts : List PatternPart} {subject : List Char} :
    Fits (openPart isOpen ++ parts) subject ↔
      ∃ front rest, subject = front ++ rest ∧ (isOpen = false → front = []) ∧ Fits parts rest := by
  cases isOpen with
  | false => simp [openPart]
  | true => simp [openPart, Fits]

/-- **A subject fits a pattern that holds its text**, with nothing else on
a side that is not open. -/
theorem Pattern.fits_parts_iff {p : Pattern} {subject : List Char} :
    Fits p.parts subject ↔
      ∃ front back, subject = front ++ (p.text.toList ++ back) ∧
        (p.openStart = false → front = []) ∧ (p.openEnd = false → back = []) := by
  rw [Pattern.parts, fits_openPart_append_iff]
  constructor
  · rintro ⟨front, rest, rfl, hfront, hrest⟩
    obtain ⟨back, rfl, hback⟩ := fits_only_append_iff.mp hrest
    exact ⟨front, back, rfl, hfront, fits_openPart_iff.mp hback⟩
  · rintro ⟨front, back, rfl, hfront, hback⟩
    exact ⟨front, _, rfl, hfront, fits_only_append_iff.mpr ⟨back, rfl, fits_openPart_iff.mpr hback⟩⟩

theorem Pattern.fits_anywhere_iff {text : String} {subject : List Char} :
    Fits (Pattern.anywhere text).parts subject ↔ text.toList <:+: subject := by
  rw [fits_parts_iff]
  simp [anywhere, List.IsInfix, eq_comm]

theorem Pattern.fits_atStart_iff {text : String} {subject : List Char} :
    Fits (Pattern.atStart text).parts subject ↔ text.toList <+: subject := by
  rw [fits_parts_iff]
  simp [atStart, List.IsPrefix, eq_comm]

theorem Pattern.fits_atEnd_iff {text : String} {subject : List Char} :
    Fits (Pattern.atEnd text).parts subject ↔ text.toList <:+ subject := by
  rw [fits_parts_iff]
  simp [atEnd, List.IsSuffix, eq_comm]

example : Fits (Pattern.atStart "a_").parts "a_b".toList := by decide

example : ¬ Fits (Pattern.atStart "a_").parts "acb".toList := by decide

/-! ## Queries that match -/

/-- A query is read as a match of a column, or the denial of one, against
a pattern in which a character escapes. -/
def IsMatchOf (column : String) (negated : Bool) (pattern : List Char) (escape : Char)
    (q : String) : Prop :=
  ∃ ts name marked body marked' body', scan q.toList = some ts ∧
    solid ts = .identifier name :: (words (if negated then ["NOT", "LIKE"] else ["LIKE"]) ++
      [.literal marked body, .word "ESCAPE".toList, .literal marked' body']) ∧
    Token.decode '"' false name = column.toList ∧ Token.decode '\'' marked body = pattern ∧
    Token.decode '\'' marked' body' = [escape]

theorem Predicate.isMatchOf_text (column : String) (negated : Bool) (pattern : Pattern) :
    IsMatchOf column negated pattern.chars '\\' (Predicate.like column negated pattern).text :=
  ⟨_, _, _, _, _, _, scan_text _, (solid_tokens _).trans (congrArg _ (solid_like ..)),
    decode_identifier _, content_literalToken _, by decide⟩

/-- Where an operator looks for a text in a subject, if it looks for
one. -/
def Operator.finds? : Operator → Option (List Char → List Char → Prop)
  | .contains | .notContains => some fun text subject => text <:+: subject
  | .startsWith => some fun text subject => text <+: subject
  | .endsWith => some fun text subject => text <:+ subject
  | _ => none

end Sql

open Sql

namespace Criteria.Test

/-- An operator that looks for a text becomes a match of a pattern that
finds it. -/
theorem exists_like_of_predicateOf {t : Test} {operator : Operator} {p : Predicate}
    {Finds : List Char → List Char → Prop} (hfinds : operator.finds? = some Finds)
    (h : t.predicateOf operator = .ok p) :
    ∃ pattern, p = .like t.attributeName (operator == .notContains) pattern ∧
      ∀ subject, Fits pattern.parts subject ↔ Finds (joinedText t.values).toList subject := by
  cases operator with
  | contains | notContains =>
    obtain ⟨s, hs, rfl⟩ := eq_ok_of_map_eq_ok h
    obtain rfl := soughtText_eq_ok hs
    obtain rfl := Option.some.inj hfinds
    exact ⟨_, rfl, fun _ => Pattern.fits_anywhere_iff⟩
  | startsWith =>
    obtain ⟨s, hs, rfl⟩ := eq_ok_of_map_eq_ok h
    obtain rfl := soughtText_eq_ok hs
    obtain rfl := Option.some.inj hfinds
    exact ⟨_, rfl, fun _ => Pattern.fits_atStart_iff⟩
  | endsWith =>
    obtain ⟨s, hs, rfl⟩ := eq_ok_of_map_eq_ok h
    obtain rfl := soughtText_eq_ok hs
    obtain rfl := Option.some.inj hfinds
    exact ⟨_, rfl, fun _ => Pattern.fits_atEnd_iff⟩
  | _ => cases hfinds

/-- **A match finds the text that was typed.** Take a test with an
operator that looks for a text. Its query is read as a match of the
attribute against a pattern that is well formed, and the subjects that
fit the pattern are those that contain the joined text of the values, or
start or end with it, as the operator says. -/
theorem finds_of_sql_eq_ok {t : Test} {operator : Operator} {q : String}
    {Finds : List Char → List Char → Prop}
    (hoperator : Operator.ofToken? t.operator = some operator)
    (hfinds : operator.finds? = some Finds) (h : t.sql = .ok q) :
    ∃ pattern escape parts,
      IsMatchOf t.attributeName (operator == .notContains) pattern escape q ∧
      parts? escape pattern = some parts ∧
      ∀ subject : String, Fits parts subject.toList ↔
        Finds (joinedText t.values).toList subject.toList := by
  obtain ⟨p, hp, rfl⟩ := eq_ok_of_map_eq_ok h
  simp only [predicate, hoperator] at hp
  obtain ⟨pattern, rfl, hfits⟩ := exists_like_of_predicateOf hfinds hp
  exact ⟨pattern.chars, '\\', pattern.parts, Predicate.isMatchOf_text .., pattern.parts?_chars,
    fun subject => hfits subject.toList⟩

/-- A test for a text of wildcards that ends in a backslash. -/
def wildcardsTest : Test :=
  ⟨"1_like", 1, "note", " Ends_With ", [some (.text "50%_"), none, some (.text "a\\")],
    some .string⟩

/-- The last percent sign is the text's own and not an open end. -/
theorem wildcardsTest_finds :
    Operator.ofToken? wildcardsTest.operator = some .endsWith ∧
      wildcardsTest.sql = .ok "\"note\" LIKE E'%50\\\\%\\\\_a\\\\\\\\' ESCAPE E'\\\\'" ∧
      ∃ pattern escape parts,
        IsMatchOf "note" false pattern escape
          "\"note\" LIKE E'%50\\\\%\\\\_a\\\\\\\\' ESCAPE E'\\\\'" ∧
        parts? escape pattern = some parts ∧
        ∀ subject : String, Fits parts subject.toList ↔ "50%_a\\".toList <:+ subject.toList := by
  have hoperator : Operator.ofToken? wildcardsTest.operator = some .endsWith := by decide +kernel
  have hsql : wildcardsTest.sql =
      .ok "\"note\" LIKE E'%50\\\\%\\\\_a\\\\\\\\' ESCAPE E'\\\\'" := by decide +kernel
  exact ⟨hoperator, hsql, finds_of_sql_eq_ok hoperator rfl hsql⟩

end Criteria.Test

end LayerQuery
