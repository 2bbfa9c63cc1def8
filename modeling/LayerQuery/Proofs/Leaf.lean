import LayerQuery.Proofs.Lexeme
import LayerQuery.Proofs.Query
/-!
# Tests as tokens

A predicate is read as the tokens of its form, with one token for the
column and one for each operand (`scan_chars`), and the statement that
it is taken out of leaves it whole (`text_eq`). So the text of a test
holds what its operator asks for and nothing else, whatever the user
typed as attribute and values (`scan_sql`).
-/

namespace LayerQuery

namespace Sql

/-! ## Operands -/

/-- The token of an operand. -/
def Operand.token : Operand → Token
  | .text s => literalToken s.toList
  | .integer n => .word (integerText n).toList
  | .real x => .word x.queryText.toList
  | .boolean b => .word (if b then "TRUE".toList else "FALSE".toList)

theorem Operand.scan_chars (o : Operand) : scan o.chars = some [o.token] := by
  cases o with
  | text s => exact scan_literalChars _
  | integer n =>
    exact scan_word (integerText_ne_nil n) fun c hc =>
      isWordChar_of_isNumeralChar (isNumeralChar_of_mem_integerText hc)
  | real x =>
    exact scan_word x.queryText_ne_nil fun c hc =>
      isWordChar_of_isNumeralChar (Binary64.isNumeralChar_of_mem_queryText hc)
  | boolean b => cases b <;> decide

/-- Tokens with a comma and a blank between them. -/
def listed : List Token → List Token
  | [] => []
  | [t] => [t]
  | t :: ts => t :: .comma :: .blank ' ' :: listed ts

theorem scan_operands (os : List Operand) :
    scan ([',', ' '].intercalate (os.map Operand.chars)) =
      some (listed (os.map Operand.token)) := by
  induction os with
  | nil => rfl
  | cons o os ih =>
    cases os with
    | nil => simpa [listed] using o.scan_chars
    | cons o' os =>
      have hrest := scan_cons mark?_space ih
      have hall := scan_append_cons o.scan_chars mark?_comma hrest
      simpa only [List.map_cons, List.intercalate_cons_cons, List.cons_append, List.nil_append,
        List.append_assoc, listed] using hall

/-! ## Predicates -/

/-- The word of a denial, with the blank behind it. -/
def negation (negated : Bool) : List Token :=
  if negated then [.word "NOT".toList, .blank ' '] else []

namespace Predicate

/-- The tokens that follow the column. -/
def testTokens : Predicate → List Token
  | .compare _ comparison operand =>
    [.word comparison.sign.toList, .blank ' ', operand.token]
  | .member _ negated operands =>
    negation negated ++ .word "IN".toList :: .blank ' ' :: .opening ::
      (listed (operands.map Operand.token) ++ [.closing])
  | .like _ negated pattern =>
    negation negated ++ [.word "LIKE".toList, .blank ' ', literalToken pattern.chars, .blank ' ',
      .word "ESCAPE".toList, .blank ' ', literalToken ['\\']]
  | .isNull _ negated =>
    .word "IS".toList :: .blank ' ' :: (negation negated ++ [.word "NULL".toList])

/-- The token of the column. -/
def columnToken (p : Predicate) : Token :=
  .identifier (p.column.toList.flatMap identifierChar)

/-- The tokens of a predicate. -/
def tokens (p : Predicate) : List Token :=
  p.columnToken :: .blank ' ' :: p.testTokens

theorem scan_testChars (p : Predicate) : scan p.testChars = some p.testTokens := by
  have hin : scan "IN".toList = some [.word "IN".toList] := by decide
  have hlike : scan "LIKE".toList = some [.word "LIKE".toList] := by decide
  have hnot : scan "NOT".toList = some [.word "NOT".toList] := by decide
  have hescape : scan "ESCAPE".toList = some [.word "ESCAPE".toList] := by decide
  cases p with
  | compare column comparison operand =>
    have hsign : scan comparison.sign.toList = some [.word comparison.sign.toList] := by
      cases comparison <;> decide
    exact scan_append_cons hsign mark?_space operand.scan_chars
  | member column negated operands =>
    have hlist := scan_cons mark?_opening
      (scan_append_singleton (scan_operands operands) mark?_closing)
    have hmember := scan_append_cons hin mark?_space hlist
    cases negated with
    | false => simpa [testChars, testTokens, negation] using hmember
    | true =>
      simpa [testChars, testTokens, negation] using scan_append_cons hnot mark?_space hmember
  | like column negated pattern =>
    have hend := scan_append_cons hescape mark?_space (scan_literalChars ['\\'])
    have hmatch := scan_append_cons hlike mark?_space
      (scan_append_cons (scan_literalChars pattern.chars) mark?_space hend)
    cases negated with
    | false => simpa [testChars, testTokens, negation] using hmatch
    | true =>
      simpa [testChars, testTokens, negation] using scan_append_cons hnot mark?_space hmatch
  | isNull column negated =>
    simp only [testChars, testTokens]
    cases negated <;> decide

/-- **A predicate is read as its tokens.** -/
theorem scan_chars (p : Predicate) : scan p.chars = some p.tokens :=
  scan_append_cons (scan_identifierChars _) mark?_space p.scan_testChars

end Predicate

/-! ## The way through the statement

The mark that the statement is split at stands before the predicate, so
whatever the predicate holds comes too late to be taken for it. Blanks
at the ends are not lost either, since a predicate has none there. -/

/-- The text ends in a character that is no blank. -/
def EndsSolid (cs : List Char) : Prop :=
  ∃ front c, cs = front ++ [c] ∧ Text.isBlank c = false

theorem EndsSolid.append {cs : List Char} (h : EndsSolid cs) (front : List Char) :
    EndsSolid (front ++ cs) := by
  obtain ⟨middle, c, rfl, hc⟩ := h
  exact ⟨front ++ middle, c, (List.append_assoc ..).symm, hc⟩

theorem endsSolid_append_singleton {front : List Char} {c : Char} (h : Text.isBlank c = false) :
    EndsSolid (front ++ [c]) :=
  ⟨front, c, rfl, h⟩

theorem isBlank_of_isWordChar {c : Char} (h : isWordChar c = true) : Text.isBlank c = false := by
  grind [isWordChar, mark?]

/-- A word ends in one of its characters. -/
theorem endsSolid_of_isWordChar {w : List Char} (hne : w ≠ [])
    (h : ∀ c ∈ w, isWordChar c = true) : EndsSolid w :=
  ⟨w.dropLast, w.getLast hne, (List.dropLast_append_getLast hne).symm,
    isBlank_of_isWordChar (h _ (List.getLast_mem hne))⟩

theorem endsSolid_literalChars (text : List Char) : EndsSolid (literalChars text) := by
  unfold literalChars
  simp only
  split
  · exact (endsSolid_append_singleton (by decide)).append ['E', '\'']
  · exact (endsSolid_append_singleton (by decide)).append ['\'']

theorem Operand.endsSolid_chars (o : Operand) : EndsSolid o.chars := by
  cases o with
  | text s => exact endsSolid_literalChars _
  | integer n =>
    exact endsSolid_of_isWordChar (integerText_ne_nil n) fun c hc =>
      isWordChar_of_isNumeralChar (isNumeralChar_of_mem_integerText hc)
  | real x =>
    exact endsSolid_of_isWordChar x.queryText_ne_nil fun c hc =>
      isWordChar_of_isNumeralChar (Binary64.isNumeralChar_of_mem_queryText hc)
  | boolean b =>
    cases b
    · exact ⟨"FALS".toList, 'E', by decide, by decide⟩
    · exact ⟨"TRU".toList, 'E', by decide, by decide⟩

namespace Predicate

theorem endsSolid_testChars (p : Predicate) : EndsSolid p.testChars := by
  cases p with
  | compare column comparison operand =>
    exact (operand.endsSolid_chars.append [' ']).append comparison.sign.toList
  | member column negated operands => exact endsSolid_append_singleton (by decide)
  | like column negated pattern => exact (endsSolid_literalChars ['\\']).append _
  | isNull column negated =>
    simp only [testChars]
    cases negated
    · exact ⟨"IS NUL".toList, 'L', by decide, by decide⟩
    · exact ⟨"IS NOT NUL".toList, 'L', by decide, by decide⟩

theorem trimChars_eq {cs : List Char} {c : Char} (hc : Text.isBlank c = false)
    (hend : EndsSolid cs) : Text.trimChars (c :: cs) = c :: cs := by
  obtain ⟨front, d, rfl, hd⟩ := hend
  simp [Text.trimChars, hc, hd]

theorem after?_statement (cs : List Char) :
    after? " WHERE ".toList ("SELECT ".toList ++ " WHERE ".toList ++ cs) = some cs := by
  simp [after?, List.isPrefixOf]

/-- **The statement gives the predicate back.** -/
theorem text_eq (p : Predicate) : p.text = String.ofList p.chars := by
  -- the column opens with a quote, so only the other end needs a look
  have hend : EndsSolid (p.column.toList.flatMap identifierChar ++ ['"'] ++ ' ' :: p.testChars) :=
    (p.endsSolid_testChars.append [' ']).append _
  have htrim : Text.trimChars p.chars = p.chars := trimChars_eq (by decide) hend
  have hcondition : conditionChars (statementChars p) = p.chars := by
    unfold conditionChars statementChars
    simp only [after?_statement, htrim]
  unfold text
  exact congrArg String.ofList hcondition

theorem scan_text (p : Predicate) : scan p.text.toList = some p.tokens := by
  rw [p.text_eq, String.toList_ofList]
  exact p.scan_chars

end Predicate

/-! ## Tokens without spaces -/

/-- The tokens that are more than a space. -/
def solid (ts : List Token) : List Token :=
  ts.filter (· ≠ .blank ' ')

/-- Words, each a token. -/
def words (ws : List String) : List Token :=
  ws.map fun w => .word w.toList

theorem Operand.token_ne_blank (o : Operand) : o.token ≠ .blank ' ' := by
  cases o <;> exact Token.noConfusion

/-- The token that an operand is written as: a text as a literal that
stands for it, anything else as a word. -/
def Operand.IsWritten : Operand → Token → Prop
  | .text s, tok => ∃ marked body,
      tok = .literal marked body ∧ Token.decode '\'' marked body = s.toList
  | .integer n, tok => tok = .word (integerText n).toList
  | .real x, tok => tok = .word x.queryText.toList
  | .boolean b, tok => tok = .word (if b then "TRUE".toList else "FALSE".toList)

theorem Operand.isWritten_token (o : Operand) : o.IsWritten o.token := by
  cases o with
  | text s => exact ⟨_, _, rfl, content_literalToken s.toList⟩
  | integer n => rfl
  | real x => rfl
  | boolean b => rfl

theorem solid_listed (os : List Operand) :
    solid (listed (os.map Operand.token)) = (os.map Operand.token).intersperse .comma := by
  induction os with
  | nil => rfl
  | cons o os ih =>
    cases os with
    | nil => simp [listed, solid, o.token_ne_blank]
    | cons o' os =>
      simpa [listed, solid, o.token_ne_blank] using ih

namespace Predicate

theorem solid_tokens (p : Predicate) : solid p.tokens = p.columnToken :: solid p.testTokens := rfl

theorem solid_compare (column : String) (comparison : Comparison) (o : Operand) :
    solid (compare column comparison o).testTokens =
      [.word comparison.sign.toList, o.token] := by
  simp [solid, testTokens, o.token_ne_blank]

theorem solid_member (column : String) (negated : Bool) (os : List Operand) :
    solid (member column negated os).testTokens =
      words (if negated then ["NOT", "IN"] else ["IN"]) ++ .opening ::
        ((os.map Operand.token).intersperse .comma ++ [.closing]) := by
  rw [← solid_listed]
  cases negated <;> simp [solid, testTokens, negation, words]

theorem solid_like (column : String) (negated : Bool) (pattern : Pattern) :
    solid (like column negated pattern).testTokens =
      words (if negated then ["NOT", "LIKE"] else ["LIKE"]) ++
        [literalToken pattern.chars, .word "ESCAPE".toList, .literal true ['\\', '\\']] := by
  cases negated <;> rfl

theorem solid_isNull (column : String) (negated : Bool) :
    solid (isNull column negated).testTokens =
      words (if negated then ["IS", "NOT", "NULL"] else ["IS", "NULL"]) := by
  cases negated <;> rfl

end Predicate

end Sql

open Sql

namespace Criteria.Test

/-! ## What an operator asks for -/

variable {t : Test}

theorem singleOperand_eq_ok {o : Operand} (h : t.singleOperand = .ok o) :
    t.operands = .ok [o] := by
  obtain ⟨os, hos, h⟩ := eq_ok_of_bind_eq_ok h
  split at h
  · rw [hos, Except.ok.inj h]
  · cases h

/-- Equality compares a single value directly. -/
theorem equality_eq_ok {negated : Bool} {p : Predicate} (h : t.equality negated = .ok p) :
    (∃ o, t.operands = .ok [o] ∧
      p = .compare t.attributeName (if negated then .unequal else .equal) o) ∨
    ∃ os, t.operands = .ok os ∧ os.length ≠ 1 ∧ p = .member t.attributeName negated os := by
  obtain ⟨os, hos, h⟩ := eq_ok_of_bind_eq_ok h
  split at h
  · exact .inl ⟨_, hos, (Except.ok.inj h).symm⟩
  · rename_i hne
    refine .inr ⟨os, hos, fun hlength => ?_, (Except.ok.inj h).symm⟩
    obtain ⟨o, ho⟩ := List.length_eq_one_iff.mp hlength
    exact hne o ho

theorem soughtText_eq_ok {s : String} (h : t.soughtText = .ok s) : s = joinedText t.values := by
  unfold soughtText at h
  simp only at h
  split at h
  · cases h
  · exact (Except.ok.inj h).symm

/-- A token that a value is written as, read by the type of the
attribute. -/
def Writes (t : Test) (v : Value) (tok : Token) : Prop :=
  ∃ o, operand t.attributeType v = .ok o ∧ o.IsWritten tok

/-- A comparison with the one value that is there. -/
def Compares (t : Test) (sign : String) (ts : List Token) : Prop :=
  ∃ v tok, present t.values = [v] ∧ t.Writes v tok ∧ ts = [.word sign.toList, tok]

/-- A list of the values that are there, in their order. -/
def Lists (t : Test) (front : List String) (ts : List Token) : Prop :=
  ∃ toks, toks ≠ [] ∧ List.Forall₂ t.Writes (present t.values) toks ∧
    ts = words front ++ .opening :: (toks.intersperse .comma ++ [.closing])

/-- A match of a pattern, and the backslash that escapes in it. -/
def Matches (front : List String) (pattern : Pattern) (ts : List Token) : Prop :=
  ∃ marked body, Token.decode '\'' marked body = pattern.chars ∧
    ts = words front ++
      [.literal marked body, .word "ESCAPE".toList, .literal true ['\\', '\\']]

/-- What an operator writes behind the column. -/
def Asks (t : Test) : Operator → List Token → Prop
  | .isNull, ts => ts = words ["IS", "NULL"]
  | .isNotNull, ts => ts = words ["IS", "NOT", "NULL"]
  | .isTrue, ts => ts = words ["=", "TRUE"]
  | .isFalse, ts => ts = words ["=", "FALSE"]
  | .equal, ts =>
    if t.isBare then ts = words ["=", "TRUE"]
    else t.Compares "=" ts ∨ ((present t.values).length ≠ 1 ∧ t.Lists ["IN"] ts)
  | .unequal, ts =>
    if t.isBare then ts = words ["<>", "TRUE"]
    else t.Compares "<>" ts ∨ ((present t.values).length ≠ 1 ∧ t.Lists ["NOT", "IN"] ts)
  | .greater, ts => t.Compares ">" ts
  | .less, ts => t.Compares "<" ts
  | .atLeast, ts => t.Compares ">=" ts
  | .atMost, ts => t.Compares "<=" ts
  | .contains, ts => Matches ["LIKE"] (.anywhere (joinedText t.values)) ts
  | .notContains, ts => Matches ["NOT", "LIKE"] (.anywhere (joinedText t.values)) ts
  | .startsWith, ts => Matches ["LIKE"] (.atStart (joinedText t.values)) ts
  | .endsWith, ts => Matches ["LIKE"] (.atEnd (joinedText t.values)) ts
  | .oneOf, ts => t.Lists ["IN"] ts
  | .noneOf, ts => t.Lists ["NOT", "IN"] ts

theorem compares_of_operands {o : Operand} (h : t.operands = .ok [o]) (comparison : Comparison) :
    t.Compares comparison.sign
      (solid (Predicate.compare t.attributeName comparison o).testTokens) := by
  obtain ⟨hforall, -⟩ := operands_eq_ok h
  obtain ⟨v, vs, hv, hnil, hvalues⟩ := List.forall₂_cons_right_iff.mp hforall
  obtain rfl := List.forall₂_nil_right_iff.mp hnil
  exact ⟨v, o.token, hvalues, ⟨o, hv, o.isWritten_token⟩, Predicate.solid_compare ..⟩

theorem lists_of_operands {os : List Operand} (h : t.operands = .ok os) (negated : Bool) :
    t.Lists (if negated then ["NOT", "IN"] else ["IN"])
      (solid (Predicate.member t.attributeName negated os).testTokens) := by
  obtain ⟨hforall, hne⟩ := operands_eq_ok h
  refine ⟨os.map Operand.token, by simpa using hne, ?_, Predicate.solid_member ..⟩
  rw [List.forall₂_map_right_iff]
  exact hforall.imp fun v o ho => ⟨o, ho, o.isWritten_token⟩

theorem matches_like (column : String) (negated : Bool) (pattern : Pattern) :
    Matches (if negated then ["NOT", "LIKE"] else ["LIKE"]) pattern
      (solid (Predicate.like column negated pattern).testTokens) :=
  ⟨_, _, content_literalToken pattern.chars, Predicate.solid_like ..⟩

theorem asks_of_equality {negated : Bool} {p : Predicate} (h : t.equality negated = .ok p) :
    p.column = t.attributeName ∧
      (t.Compares (if negated then "<>" else "=") (solid p.testTokens) ∨
        (present t.values).length ≠ 1 ∧
          t.Lists (if negated then ["NOT", "IN"] else ["IN"]) (solid p.testTokens)) := by
  -- one value is compared, any other number of them is listed
  rcases equality_eq_ok h with ⟨o, hos, rfl⟩ | ⟨os, hos, hlength, rfl⟩
  · have hcompares := compares_of_operands hos (if negated then .unequal else .equal)
    refine ⟨rfl, .inl ?_⟩
    cases negated <;> exact hcompares
  · have hcount := (operands_eq_ok hos).1.length_eq
    exact ⟨rfl, .inr ⟨hcount ▸ hlength, lists_of_operands hos negated⟩⟩

/-- **The predicate of an operator is of the column, and holds what the
operator asks for.** -/
theorem asks_of_predicateOf {operator : Operator} {p : Predicate}
    (h : t.predicateOf operator = .ok p) :
    p.column = t.attributeName ∧ t.Asks operator (solid p.testTokens) := by
  cases operator with
  | isNull | isNotNull =>
    obtain rfl := Except.ok.inj h
    exact ⟨rfl, Predicate.solid_isNull ..⟩
  | isTrue | isFalse =>
    obtain rfl := Except.ok.inj h
    exact ⟨rfl, Predicate.solid_compare ..⟩
  | equal | unequal =>
    simp only [predicateOf] at h
    simp only [Asks]
    split at h
    · rename_i hbare
      obtain rfl := Except.ok.inj h
      exact ⟨rfl, by rw [if_pos hbare]; exact Predicate.solid_compare ..⟩
    · rename_i hbare
      rw [if_neg hbare]
      exact asks_of_equality h
  | greater | less | atLeast | atMost =>
    obtain ⟨o, ho, rfl⟩ := eq_ok_of_map_eq_ok h
    exact ⟨rfl, compares_of_operands (singleOperand_eq_ok ho) _⟩
  | contains | notContains | startsWith | endsWith =>
    obtain ⟨s, hs, rfl⟩ := eq_ok_of_map_eq_ok h
    obtain rfl := soughtText_eq_ok hs
    exact ⟨rfl, matches_like ..⟩
  | oneOf | noneOf =>
    obtain ⟨os, hos, rfl⟩ := eq_ok_of_map_eq_ok h
    exact ⟨rfl, lists_of_operands hos _⟩

/-- Read from left to right, a text is the column of a test and then
what its operator asks for, and no character is left over. -/
def IsReadFrom (t : Test) (q : String) : Prop :=
  ∃ operator ts body rest,
    Operator.ofToken? t.operator = some operator ∧
    scan q.toList = some ts ∧ ts.flatMap Token.chars = q.toList ∧
    solid ts = .identifier body :: rest ∧
    Token.decode '"' false body = t.attributeName.toList ∧
    t.Asks operator rest

/-- **No text of the user breaks out of a predicate.** Whatever stands in
the attribute and in the values, the predicate is read as one identifier
that means the attribute, the words of the operator and, where it takes
values, one token for each or one pattern for all of them. -/
theorem isReadFrom_of_sql_eq_ok {t : Test} {q : String} (h : t.sql = .ok q) :
    t.IsReadFrom q := by
  obtain ⟨p, hp, rfl⟩ := eq_ok_of_map_eq_ok h
  unfold predicate at hp
  split at hp
  · rename_i operator hoperator
    obtain ⟨hcolumn, hasks⟩ := asks_of_predicateOf hp
    refine ⟨operator, p.tokens, _, _, hoperator, p.scan_text, flatMap_chars_of_scan p.scan_text,
      p.solid_tokens, ?_, hasks⟩
    rw [decode_identifier, hcolumn]
  · cases hp

/-- A test whose attribute and values try to close their quotes. -/
def quotesTest : Test :=
  ⟨"1_in", 1, "a\" WHERE 'b", "in", [some (.text "it's\\"), none, some (.text " OR \"c\") ")],
    some .string⟩

theorem quotesTest_isReadFrom :
    quotesTest.sql =
        .ok "\"a\"\" WHERE 'b\" IN (E'it\\'s\\\\', E' OR \\\"c\\\") ')" ∧
      quotesTest.IsReadFrom
        "\"a\"\" WHERE 'b\" IN (E'it\\'s\\\\', E' OR \\\"c\\\") ')" :=
  ⟨by decide +kernel, isReadFrom_of_sql_eq_ok (by decide +kernel)⟩

end Criteria.Test

end LayerQuery
