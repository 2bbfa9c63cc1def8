import LayerQuery.Proofs.Outcome
import LayerQuery.Proofs.Question
/-!
# What the backend makes of a literal

A text is written as a literal by one set of rules and read by another.
The backend takes a literal without a mark as it stands, up to doubled
quotes. In a marked one it knows five letters after a backslash, and
octal and hexadecimal digits for the code of a character; before anything
else a backslash is passed over (`Token.denoted`).

The two sets agree on all escapes that are written but two. The letter
`z` is written for the character U+001A, and is read as itself
(`received`). A zero is written for U+0000, which no text of the backend
can hold, and goes together with the digits behind it. So a text without
U+0000 is received whole exactly if U+001A is not in it
(`Criteria.Test.denoted_operands`).
-/

namespace LayerQuery

open Criteria Sql Json

namespace Sql

/-! ## Reading a literal -/

/-- The value of a digit of a base up to sixteen. -/
def digit? (base : Nat) (c : Char) : Option Nat :=
  (Chars.hexDigit? c).filter (· < base)

/-- The digits that a text begins with, at most so many. -/
def digitsAt (base most : Nat) (cs : List Char) : List Nat :=
  (((cs.take most).map (digit? base)).takeWhile Option.isSome).reduceOption

/-- The character whose code the digits are. -/
def coded (base : Nat) (digits : List Nat) : Char :=
  Char.ofNat (digits.foldl (· * base + ·) 0)

/-- A letter that announces a code, and how many digits it has. Without them the letter is itself. -/
def codedAt (letter : Char) (least most : Nat) (cs : List Char) : Char × Nat :=
  let digits := digitsAt 16 most cs
  if least ≤ digits.length then (coded 16 digits, digits.length + 1) else (letter, 1)

/-- What a backslash before a text stands for, and how many characters of the text belong to it. -/
def escapeAt : List Char → Char × Nat
  | [] => ('\\', 0)
  | c :: cs =>
    match digitsAt 8 3 (c :: cs) with
    | d :: ds => (coded 8 (d :: ds), ds.length + 1)
    | [] =>
      match c with
      | 'b' => ('\x08', 1)
      | 'f' => ('\x0c', 1)
      | 'n' => ('\n', 1)
      | 'r' => ('\r', 1)
      | 't' => ('\t', 1)
      | 'x' => codedAt 'x' 1 2 cs
      | 'u' => codedAt 'u' 4 4 cs
      | 'U' => codedAt 'U' 8 8 cs
      | c => (c, 1)

/-- What stands between the quotes of a literal, as the backend reads it; the first characters may
have been read already. -/
def denotedFrom (marked : Bool) : Nat → List Char → List Char
  | _, [] => []
  | skip + 1, _ :: cs => denotedFrom marked skip cs
  | 0, c :: cs =>
    if marked && c = '\\' then (escapeAt cs).1 :: denotedFrom marked (escapeAt cs).2 cs
    else if c = '\'' ∧ cs.head? = some '\'' then c :: denotedFrom marked 1 cs
    else c :: denotedFrom marked 0 cs

/-- The text that a literal denotes. -/
def Token.denoted : Token → Option (List Char)
  | .literal marked body => some (denotedFrom marked 0 body)
  | _ => none

example : (Token.literal true "it\\'s 5\\0455 \\x41\\u00e9".toList).denoted =
    some "it's 5%5 A\u00e9".toList := by decide

/-! ## Reading what was written -/

/-- The character that is received for one that was written. -/
def received (c : Char) : Char :=
  if c = '\x1a' then 'z' else c

/-- A character is escaped by a letter that is read as what is received for it, or it is written as
it is and received as it is. -/
theorem literalChar_cases_received {c : Char} (h : c ≠ '\x00') :
    (∃ letter, literalChar c = ['\\', letter] ∧ ∀ cs, escapeAt (letter :: cs) = (received c, 1)) ∨
      (literalChar c = [c] ∧ received c = c ∧ c ≠ '\\' ∧ c ≠ '\'') := by
  unfold literalChar
  split
  iterate 3 exact .inl ⟨_, rfl, fun _ => rfl⟩
  · exact absurd rfl h
  iterate 5 exact .inl ⟨_, rfl, fun _ => rfl⟩
  · next hslash _ hquote _ _ _ hz _ _ => exact .inr ⟨rfl, if_neg hz, hslash, hquote⟩

/-- **One character is received for each that was written.** -/
theorem denotedFrom_flatMap_literalChar {text : List Char} (h : '\x00' ∉ text) :
    denotedFrom true 0 (text.flatMap literalChar) = text.map received := by
  induction text with
  | nil => rfl
  | cons c text ih =>
    obtain ⟨hc, hrest⟩ := List.ne_and_not_mem_of_not_mem_cons h
    rw [List.flatMap_cons, List.map_cons, ← ih hrest]
    rcases literalChar_cases_received hc.symm with
      ⟨letter, hletter, hescape⟩ | ⟨hplain, hsame, hslash, hquote⟩
    · simp [hletter, denotedFrom, hescape]
    · simp [hplain, hsame, denotedFrom, hslash, hquote]

theorem denotedFrom_plain {text : List Char} (h : ∀ c ∈ text, c ≠ '\'') :
    denotedFrom false 0 text = text := by
  induction text with
  | nil => rfl
  | cons c text ih =>
    obtain ⟨hc, hrest⟩ := List.forall_mem_cons.mp h
    simp [denotedFrom, hc, ih hrest]

theorem map_received_eq_iff {text : List Char} : text.map received = text ↔ '\x1a' ∉ text := by
  induction text with
  | nil => exact iff_of_true rfl List.not_mem_nil
  | cons c text ih =>
    rw [List.map_cons, List.cons.injEq, ih, List.mem_cons, not_or]
    refine and_congr_left fun _ => ?_
    unfold received
    split
    · next hz => exact iff_of_false (hz ▸ by decide) (not_not.mpr hz.symm)
    · next hz => exact iff_of_true rfl (Ne.symm hz)

/-- **What a literal denotes to the backend**, if it was written for a text without U+0000. -/
theorem denoted_literalToken {text : List Char} (h : '\x00' ∉ text) :
    (literalToken text).denoted = some (text.map received) := by
  unfold literalToken
  by_cases hslash : '\\' ∈ text.flatMap literalChar
  · rw [decide_eq_true hslash, Token.denoted, denotedFrom_flatMap_literalChar h]
  · -- nothing was escaped, so U+001A is not there
    obtain ⟨hbody, hquotes⟩ := flatMap_literalChar_of_not_mem hslash
    have hz : '\x1a' ∉ text := fun hz =>
      hslash (List.mem_flatMap.mpr ⟨_, hz, List.mem_cons_self⟩)
    rw [decide_eq_false hslash, hbody, Token.denoted, denotedFrom_plain hquotes,
      map_received_eq_iff.mpr hz]

end Sql

/-! ## The literals of a test -/

namespace Criteria.Test

/-- The type leaves texts as they are. -/
def ComparesText (t : Test) : Prop :=
  t.attributeType ≠ some .integer ∧ t.attributeType ≠ some .double ∧ t.attributeType ≠ some .boolean

theorem textOperand_of_comparesText {t : Test} (h : t.ComparesText) (s : String) :
    textOperand t.attributeType s = .ok (.text s) := by
  obtain ⟨hinteger, hdouble, hboolean⟩ := h
  cases htype : t.attributeType with
  | none => rfl
  | some type =>
    cases type with
    | integer => exact absurd htype hinteger
    | double => exact absurd htype hdouble
    | boolean => exact absurd htype hboolean
    | string | date | timestamp | geometry | null => rfl

/-- **What a literal denotes.** Take a test that compares with operands, of an attribute whose type
leaves texts as they are, and values that the operator takes. It compiles, the query has one operand
for each value, and to the backend the operand of a text without U+0000 denotes the text with the
letter `z` for each U+001A. So it denotes the text itself exactly if U+001A is not in it. -/
theorem denoted_operands {t : Test} {o : Operator} (htoken : Text.keyword t.operator ∈ o.tokens)
    (hdemand : o.demand = .operands) (htype : t.ComparesText) (haccepts : t.Accepts o) :
    ∃ q, t.sql = .ok q ∧ ∃ question : Question, question.IsIn t.attributeName q ∧
      List.Forall₂ (fun v tok => ∀ s, v = .text s → '\x00' ∉ s.toList →
          tok.denoted = some (s.toList.map received) ∧
          (tok.denoted = some s.toList ↔ '\x1a' ∉ s.toList))
        (present t.values) question.operands := by
  obtain ⟨p, hp⟩ := (exists_predicateOf_iff o).mpr haccepts
  refine ⟨p.text, by rw [sql_eq_of_mem_tokens htoken, hp]; rfl, p.question,
    column_of_predicateOf hp ▸ p.isIn_text, ?_⟩
  rcases operands_question_of_predicateOf hp with ⟨os, -, hos, htokens⟩ | ⟨hbare | hother, -⟩
  · rw [htokens, List.forall₂_map_right_iff]
    refine (operands_eq_ok hos).1.imp fun v operand hoperand s hv hnul => ?_
    subst hv
    obtain rfl := Except.ok.inj ((textOperand_of_comparesText htype s).symm.trans hoperand)
    have hdenoted := denoted_literalToken hnul
    refine ⟨hdenoted, ?_⟩
    rw [Operand.token, hdenoted, Option.some.injEq, map_received_eq_iff]
  · exact absurd (isBare_iff.mp hbare).1 htype.2.2
  · exact absurd hdemand hother

/-- A test for a text with U+001A in it. -/
def markTest : Test :=
  ⟨"1_note_=", 1, "note", "=", [some (.text "a\x1ab")], some .string⟩

theorem sql_markTest : markTest.sql = .ok "\"note\" = E'a\\zb'" := by
  decide +kernel

theorem comparesText_markTest : markTest.ComparesText := by
  unfold ComparesText
  decide

theorem accepts_markTest : markTest.Accepts .equal :=
  .inr ⟨List.cons_ne_nil _ _, fun v hv => by
    obtain rfl := List.mem_singleton.mp hv
    trivial⟩

/-- The query looks for the letter instead. -/
theorem markTest_denoted :
    markTest.sql = .ok "\"note\" = E'a\\zb'" ∧
      ∃ question : Question, question.IsIn "note" "\"note\" = E'a\\zb'" ∧
        question.operands.map Token.denoted = [some "azb".toList] := by
  have htoken : Text.keyword markTest.operator ∈ Operator.equal.tokens := by decide +kernel
  obtain ⟨q, hq, question, hquestion, hdenoted⟩ :=
    denoted_operands htoken rfl comparesText_markTest accepts_markTest
  obtain rfl := Except.ok.inj (sql_markTest.symm.trans hq)
  refine ⟨sql_markTest, question, hquestion, ?_⟩
  obtain ⟨tok, rest, htok, hrest, hoperands⟩ := List.forall₂_cons_left_iff.mp hdenoted
  obtain rfl := List.forall₂_nil_left_iff.mp hrest
  rw [hoperands, List.map_singleton, (htok _ rfl (by decide)).1]
  rfl

/-- So a literal does not always denote the text that it was made of. -/
theorem not_forall_denoted_eq :
    ¬ ∀ (t : Test) (o : Operator) (q : String) (question : Question) (s : String),
      Text.keyword t.operator ∈ o.tokens → o.demand = .operands → t.ComparesText →
        present t.values = [.text s] → '\x00' ∉ s.toList → t.sql = .ok q →
          question.IsIn t.attributeName q →
            ∀ tok ∈ question.operands, tok.denoted = some s.toList := by
  intro h
  have hin := Predicate.isIn_text (.compare "note" .equal (.text "a\x1ab"))
  have hdenoted := h markTest .equal "\"note\" = E'a\\zb'" _ "a\x1ab" (by decide +kernel) rfl
    comparesText_markTest rfl (by decide) sql_markTest hin _ List.mem_cons_self
  revert hdenoted
  decide

end Criteria.Test

end LayerQuery
