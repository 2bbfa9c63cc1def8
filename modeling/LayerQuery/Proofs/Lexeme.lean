import LayerQuery.Proofs.Numerals
import LayerQuery.Proofs.Token
import LayerQuery.Sql.Statement
/-!
# Predicates as tokens

What the scanner makes of the texts that predicates are written with.
An identifier is one token and so is a literal, and both decode to the
text they were made of: no character of that text closes the quotes
early, whatever it is (`scan_identifierChars`, `scan_literalChars`). A
predicate is then the tokens of its form, with the operands in place
(`scan_chars`), and the statement that it is taken out of leaves it
whole (`text_eq`).
-/

namespace LayerQuery

namespace Sql

/-! ## Words -/

theorem run_word {v w : List Char} (h : ∀ c ∈ w, isWordChar c = true) :
    run (.word v) w = ([], .word (v ++ w)) := by
  induction w generalizing v with
  | nil => simp [run]
  | cons c w ih =>
    have hc := h c List.mem_cons_self
    simp [run, step, hc, ih fun d hd => h d (List.mem_cons_of_mem _ hd)]

theorem start_of_isWordChar {c : Char} (h : isWordChar c = true) : start c = ([], .word [c]) := by
  simp only [isWordChar, Bool.and_eq_true, decide_eq_true_eq] at h
  unfold start
  simp only [h.1.1, h.1.2, h.2, if_false]

/-- **A word is one token.** -/
theorem scan_word {w : List Char} (hne : w ≠ []) (h : ∀ c ∈ w, isWordChar c = true) :
    scan w = some [.word w] := by
  cases w with
  | nil => exact absurd rfl hne
  | cons c w =>
    have hrun : run .between (c :: w) = ([], .word (c :: w)) := by
      simp only [run, step, start_of_isWordChar (h c List.mem_cons_self),
        run_word fun d hd => h d (List.mem_cons_of_mem _ hd), List.nil_append,
        List.singleton_append]
    simp [scan, hrun, State.close]

theorem isWordChar_of_isDigit {c : Char} (h : c.isDigit = true) : isWordChar c = true := by
  have hrange : 48 ≤ c.toNat ∧ c.toNat ≤ 57 := Char.isDigit_iff_toNat.mp h
  have hblank : Text.isBlank c = false := by
    simp only [Text.isBlank]
    grind
  have hne : ∀ d ∈ ['(', ')', ',', '"', '\''], c ≠ d := by
    rintro d hd rfl
    simp only [List.mem_cons, List.not_mem_nil, or_false] at hd
    rcases hd with rfl | rfl | rfl | rfl | rfl <;> exact absurd hrange (by decide)
  simp only [List.forall_mem_cons] at hne
  simp [isWordChar, mark?, hblank, hne]

/-- Numerals are words. -/
theorem isWordChar_of_isNumeralChar {c : Char} (h : isNumeralChar c = true) :
    isWordChar c = true := by
  rcases isDigit_or_of_isNumeralChar h with
    h | rfl | rfl | rfl | rfl | rfl | rfl | rfl | rfl | rfl
  · exact isWordChar_of_isDigit h
  all_goals decide

/-! ## Identifiers -/

theorem run_identifier (body name : List Char) :
    run (.identifier body) (name.flatMap identifierChar) =
      ([], .identifier (body ++ name.flatMap identifierChar)) := by
  induction name generalizing body with
  | nil => simp [run]
  | cons c name ih =>
    by_cases hc : c = '"'
    · simp [identifierChar, hc, run, step, ih]
    · simp [identifierChar, hc, run, step, ih]

/-- **An identifier is one token**, whatever the name. -/
theorem scan_identifierChars (name : List Char) :
    scan (identifierChars name) = some [.identifier (name.flatMap identifierChar)] := by
  have hstart : start '"' = ([], .identifier []) := by decide
  simp [scan, identifierChars, run, step, hstart, run_append, run_identifier, State.close]

/-- A character that is neither the quote nor a backslash that counts
stands for itself. -/
theorem decode_cons_of_ne {quote c : Char} {marked : Bool} {cs : List Char} (hquote : c ≠ quote)
    (hslash : marked = true → c ≠ '\\') :
    Token.decode quote marked (c :: cs) = c :: Token.decode quote marked cs := by
  cases cs with
  | nil => rfl
  | cons d cs =>
    have hfalse : (marked && decide (c = '\\')) = false := by
      cases marked <;> simp_all
    simp [Token.decode, hquote, hfalse]

/-- **An identifier stands for its name.** -/
theorem decode_identifier (name : List Char) :
    Token.decode '"' false (name.flatMap identifierChar) = name := by
  induction name with
  | nil => rfl
  | cons c name ih =>
    by_cases hc : c = '"'
    · simp [identifierChar, hc, Token.decode, ih]
    · rw [List.flatMap_cons, identifierChar, if_neg hc, List.singleton_append,
        decode_cons_of_ne hc (by simp), ih]

/-! ## Literals -/

/-- A character of a literal is escaped, or harmless. -/
theorem literalChar_cases (c : Char) :
    (∃ letter, literalChar c = ['\\', letter] ∧ Token.escaped letter = c) ∨
      (literalChar c = [c] ∧ c ≠ '\\' ∧ c ≠ '\'') := by
  unfold literalChar
  split
  iterate 9 exact .inl ⟨_, rfl, by decide⟩
  · refine .inr ⟨rfl, ?_, ?_⟩ <;> simp_all

/-- In a marked literal a backslash protects what it stands before. -/
theorem run_literal (body text : List Char) :
    run (.literal true body) (text.flatMap literalChar) =
      ([], .literal true (body ++ text.flatMap literalChar)) := by
  induction text generalizing body with
  | nil => simp [run]
  | cons c text ih =>
    rcases literalChar_cases c with ⟨letter, hc, -⟩ | ⟨hc, hslash, hquote⟩
    · simp [hc, run, step, ih]
    · simp [hc, run, step, hslash, hquote, ih]

/-- A text without a backslash among its escapes has none at all. -/
theorem flatMap_literalChar_of_not_mem {text : List Char}
    (h : '\\' ∉ text.flatMap literalChar) :
    text.flatMap literalChar = text ∧ ∀ c ∈ text, c ≠ '\'' := by
  induction text with
  | nil => simp
  | cons c text ih =>
    rw [List.flatMap_cons, List.mem_append, not_or] at h
    obtain ⟨hbody, hquotes⟩ := ih h.2
    rcases literalChar_cases c with ⟨letter, hc, -⟩ | ⟨hc, -, hquote⟩
    · exact absurd (hc ▸ List.mem_cons_self) h.1
    · refine ⟨by rw [List.flatMap_cons, hc, hbody, List.singleton_append], ?_⟩
      exact List.forall_mem_cons.mpr ⟨hquote, hquotes⟩

theorem run_plain {body text : List Char} (h : ∀ c ∈ text, c ≠ '\'') :
    run (.literal false body) text = ([], .literal false (body ++ text)) := by
  induction text generalizing body with
  | nil => simp [run]
  | cons c text ih =>
    obtain ⟨hc, hrest⟩ := List.forall_mem_cons.mp h
    simp [run, step, hc, ih hrest]

/-- The token of a text as a literal. -/
def literalToken (text : List Char) : Token :=
  .literal (decide ('\\' ∈ text.flatMap literalChar)) (text.flatMap literalChar)

/-- **A literal is one token**, whatever the text. -/
theorem scan_literalChars (text : List Char) :
    scan (literalChars text) = some [literalToken text] := by
  unfold literalChars literalToken
  simp only
  split
  · -- something is escaped, so the literal is marked
    rename_i h
    have hE : start 'E' = ([], .word ['E']) := by decide
    have hquote : isWordChar '\'' = false := by decide
    simp [scan, run, step, hE, hquote, run_append, run_literal, State.close, h]
  · -- nothing is, so the text holds no quote that would have been
    rename_i h
    have hstart : start '\'' = ([], .literal false []) := by decide
    obtain ⟨hbody, hquotes⟩ := flatMap_literalChar_of_not_mem h
    rw [hbody] at h ⊢
    simp [scan, run, step, hstart, run_append, run_plain hquotes, State.close, h]

theorem decode_marked (text : List Char) :
    Token.decode '\'' true (text.flatMap literalChar) = text := by
  induction text with
  | nil => rfl
  | cons c text ih =>
    rcases literalChar_cases c with ⟨letter, hc, hletter⟩ | ⟨hc, hslash, hquote⟩
    · simp [hc, Token.decode, hletter, ih]
    · rw [List.flatMap_cons, hc, List.singleton_append,
        decode_cons_of_ne hquote fun _ => hslash, ih]

theorem decode_plain {text : List Char} (h : ∀ c ∈ text, c ≠ '\'') :
    Token.decode '\'' false text = text := by
  induction text with
  | nil => rfl
  | cons c text ih =>
    obtain ⟨hc, hrest⟩ := List.forall_mem_cons.mp h
    rw [decode_cons_of_ne hc (by simp), ih hrest]

/-- **A literal stands for its text.** -/
theorem content_literalToken (text : List Char) : (literalToken text).content = text := by
  unfold literalToken Token.content
  by_cases h : '\\' ∈ text.flatMap literalChar
  · rw [decide_eq_true h]
    exact decode_marked text
  · obtain ⟨hbody, hquotes⟩ := flatMap_literalChar_of_not_mem h
    rw [decide_eq_false h, hbody]
    exact decode_plain hquotes

end Sql

end LayerQuery
