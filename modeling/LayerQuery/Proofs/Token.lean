import LayerQuery.Text.Blank
/-!
# Tokens of a query

How the text of a query falls into tokens, said without the compiler: a
text is read from left to right by a machine of a few states (`step`),
and what it hands out are blanks, marks, words, identifiers and
literals. A quote is doubled where it is meant; in a literal marked by
an `E` a backslash protects whatever comes next.

Two laws carry everything that is proved about texts. Tokens lose
nothing, so a text that is read is the text of its tokens
(`flatMap_chars_of_scan`). And a text up to a blank or a mark is read on
its own (`scan_append_cons`), because such a character ends every token
that can end there.
-/

namespace LayerQuery

namespace Sql

/-- A token of a query. What stands between quotes is kept as it is
written. -/
inductive Token where
  | blank (c : Char)
  | opening
  | closing
  | comma
  | identifier (body : List Char)
  | literal (marked : Bool) (body : List Char)
  | word (chars : List Char)
  deriving DecidableEq, Repr

namespace Token

/-- The characters of a token. -/
def chars : Token → List Char
  | .blank c => [c]
  | .opening => ['(']
  | .closing => [')']
  | .comma => [',']
  | .identifier body => '"' :: (body ++ ['"'])
  | .literal marked body => (if marked then ['E'] else []) ++ '\'' :: (body ++ ['\''])
  | .word w => w

/-- The character that is meant by a letter after a backslash, by the
one who wrote it. -/
def escaped : Char → Char
  | '0' => '\x00'
  | 'b' => '\x08'
  | 't' => '\t'
  | 'z' => '\x1a'
  | 'n' => '\n'
  | 'r' => '\r'
  | c => c

/-- What is meant between quotes: a doubled quote is a quote, and where
backslashes count, one and its letter are the character that is meant. -/
def decode (quote : Char) (marked : Bool) : List Char → List Char
  | [] => []
  | [c] => [c]
  | c :: d :: cs =>
    if marked && c = '\\' then escaped d :: decode quote marked cs
    else if c = quote ∧ d = quote then quote :: decode quote marked cs
    else c :: decode quote marked (d :: cs)

/-- What a token stands for. -/
def content : Token → List Char
  | .identifier body => decode '"' false body
  | .literal marked body => decode '\'' marked body
  | t => t.chars

end Token

/-! ## The machine -/

/-- What a machine has read of the token under way. -/
inductive State where
  /-- No token is under way. -/
  | between
  | word (w : List Char)
  | identifier (body : List Char)
  /-- A quote came: the end of the identifier, or the first half of a
  doubled one. -/
  | identifierQuote (body : List Char)
  | literal (marked : Bool) (body : List Char)
  | literalQuote (marked : Bool) (body : List Char)
  /-- A backslash came, in a marked literal. -/
  | backslash (body : List Char)
  deriving DecidableEq, Repr

/-- The mark that a character is by itself. -/
def mark? (c : Char) : Option Token :=
  if Text.isBlank c then some (.blank c)
  else if c = '(' then some .opening
  else if c = ')' then some .closing
  else if c = ',' then some .comma
  else none

/-- The first character of a token. -/
def start (c : Char) : List Token × State :=
  match mark? c with
  | some t => ([t], .between)
  | none =>
    if c = '"' then ([], .identifier [])
    else if c = '\'' then ([], .literal false [])
    else ([], .word [c])

/-- A character that words are made of. -/
def isWordChar (c : Char) : Bool :=
  mark? c = none && c ≠ '"' && c ≠ '\''

/-- A token ends before a character, which starts the next one. -/
def endWith (t : Token) (c : Char) : List Token × State :=
  (t :: (start c).1, (start c).2)

/-- One character more. -/
def step : State → Char → List Token × State
  | .between, c => start c
  | .word w, c =>
    if isWordChar c then ([], .word (w ++ [c]))
    -- the `E` was no word of its own
    else if c = '\'' ∧ w = ['E'] then ([], .literal true [])
    else endWith (.word w) c
  | .identifier body, c =>
    if c = '"' then ([], .identifierQuote body) else ([], .identifier (body ++ [c]))
  | .identifierQuote body, c =>
    if c = '"' then ([], .identifier (body ++ ['"', '"'])) else endWith (.identifier body) c
  | .literal marked body, c =>
    if c = '\'' then ([], .literalQuote marked body)
    else if marked && c = '\\' then ([], .backslash body)
    else ([], .literal marked (body ++ [c]))
  | .literalQuote marked body, c =>
    if c = '\'' then ([], .literal marked (body ++ ['\'', '\'']))
    else endWith (.literal marked body) c
  | .backslash body, c => ([], .literal true (body ++ ['\\', c]))

/-- A text, from a state on. -/
def run : State → List Char → List Token × State
  | s, [] => ([], s)
  | s, c :: cs => ((step s c).1 ++ (run (step s c).2 cs).1, (run (step s c).2 cs).2)

/-- What is still due at the end of a text, unless something is left
open. -/
def State.close : State → Option (List Token)
  | .between => some []
  | .word w => some [.word w]
  | .identifierQuote body => some [.identifier body]
  | .literalQuote marked body => some [.literal marked body]
  | .identifier _ | .literal _ _ | .backslash _ => none

/-- The tokens of a text, if nothing is left open at its end. -/
def scan (cs : List Char) : Option (List Token) :=
  (run .between cs).2.close.map ((run .between cs).1 ++ ·)

theorem scan_nil : scan [] = some [] := rfl

theorem run_append (s : State) (xs ys : List Char) :
    run s (xs ++ ys) =
      ((run s xs).1 ++ (run (run s xs).2 ys).1, (run (run s xs).2 ys).2) := by
  induction xs generalizing s with
  | nil => rfl
  | cons x xs ih => simp only [List.cons_append, run, ih, List.append_assoc]

/-! ## Tokens lose nothing -/

/-- The characters that a state holds back. -/
def State.held : State → List Char
  | .between => []
  | .word w => w
  | .identifier body => '"' :: body
  | .identifierQuote body => '"' :: (body ++ ['"'])
  | .literal marked body => (if marked then ['E'] else []) ++ '\'' :: body
  | .literalQuote marked body => (if marked then ['E'] else []) ++ '\'' :: (body ++ ['\''])
  | .backslash body => 'E' :: '\'' :: (body ++ ['\\'])

/-- What was handed out and what is held back, as characters. -/
def spelled (out : List Token × State) : List Char :=
  out.1.flatMap Token.chars ++ out.2.held

theorem chars_of_mark? {c : Char} {t : Token} (h : mark? c = some t) : t.chars = [c] := by
  unfold mark? at h
  grind [Token.chars]

theorem spelled_start (c : Char) : spelled (start c) = [c] := by
  unfold start
  split
  · rename_i t h
    simp [spelled, State.held, chars_of_mark? h]
  · split
    · simp_all [spelled, State.held]
    · split
      · simp_all [spelled, State.held]
      · rfl

theorem spelled_endWith (t : Token) (c : Char) : spelled (endWith t c) = t.chars ++ [c] := by
  have hstart := spelled_start c
  simp only [spelled] at hstart
  simp only [spelled, endWith, List.flatMap_cons, List.append_assoc, hstart]

/-- **A step neither adds nor drops a character.** -/
theorem spelled_step (s : State) (c : Char) : spelled (step s c) = s.held ++ [c] := by
  cases s with
  | between => simpa [step, State.held] using spelled_start c
  | word w =>
    simp only [step]
    split
    · rfl
    · split
      · rename_i h
        simp [spelled, State.held, h.1, h.2]
      · exact spelled_endWith _ _
  | identifier body =>
    simp only [step]
    split <;> simp_all [spelled, State.held]
  | identifierQuote body =>
    simp only [step]
    split
    · simp_all [spelled, State.held]
    · exact spelled_endWith _ _
  | literal marked body =>
    simp only [step]
    split
    · simp_all [spelled, State.held]
    · split
      · simp_all [spelled, State.held]
      · simp [spelled, State.held]
  | literalQuote marked body =>
    simp only [step]
    split
    · simp_all [spelled, State.held]
    · exact spelled_endWith _ _
  | backslash body => simp [step, spelled, State.held]

theorem spelled_run (s : State) (cs : List Char) : spelled (run s cs) = s.held ++ cs := by
  induction cs generalizing s with
  | nil => simp [run, spelled]
  | cons c cs ih =>
    have hstep := spelled_step s c
    have hrest := ih (step s c).2
    simp only [spelled] at hstep hrest
    simp only [run, spelled, List.flatMap_append, List.append_assoc, hrest]
    -- what the step held back, the rest of the text spells
    rw [← List.append_assoc, hstep, List.append_assoc, List.singleton_append]

theorem held_of_close {s : State} {last : List Token} (h : s.close = some last) :
    last.flatMap Token.chars = s.held := by
  cases s with
  | between | word | identifierQuote | literalQuote =>
    obtain rfl := Option.some.inj h
    simp [Token.chars, State.held]
  | identifier | literal | backslash => cases h

/-- **A text that is read is the text of its tokens.** -/
theorem flatMap_chars_of_scan {cs : List Char} {ts : List Token} (h : scan cs = some ts) :
    ts.flatMap Token.chars = cs := by
  obtain ⟨last, hlast, rfl⟩ := Option.map_eq_some_iff.mp h
  have hrun := spelled_run .between cs
  rw [List.flatMap_append, held_of_close hlast]
  exact hrun

example : scan "\"a\"\"\" IN (E'\\'', 7)".toList =
    some [.identifier ['a', '"', '"'], .blank ' ', .word ['I', 'N'], .blank ' ', .opening,
      .literal true ['\\', '\''], .comma, .blank ' ', .word ['7'], .closing] := by decide

/-! ## Texts are read piece by piece -/

theorem not_isWordChar_of_mark? {c : Char} {t : Token} (h : mark? c = some t) :
    isWordChar c = false := by
  simp [isWordChar, h]

theorem start_of_mark? {c : Char} {t : Token} (h : mark? c = some t) :
    start c = ([t], .between) := by
  unfold start
  simp only [h]

theorem mark?_space : mark? ' ' = some (.blank ' ') := by decide

theorem mark?_opening : mark? '(' = some .opening := by decide

theorem mark?_closing : mark? ')' = some .closing := by decide

theorem mark?_comma : mark? ',' = some .comma := by decide

theorem mark?_quotes : mark? '"' = none ∧ mark? '\'' = none := by decide

theorem ne_of_mark? {c : Char} {t : Token} (h : mark? c = some t) : c ≠ '"' ∧ c ≠ '\'' := by
  constructor
  · rintro rfl
    rw [mark?_quotes.1] at h
    cases h
  · rintro rfl
    rw [mark?_quotes.2] at h
    cases h

/-- A mark ends whatever can end, and stands by itself. -/
theorem step_of_close {s : State} {last : List Token} {c : Char} {t : Token}
    (hs : s.close = some last) (hc : mark? c = some t) :
    step s c = (last ++ [t], .between) := by
  obtain ⟨hdouble, hsingle⟩ := ne_of_mark? hc
  -- what can end is behind its quotes, and a mark is neither a quote nor part of a word
  cases s with
  | between =>
    obtain rfl := Option.some.inj hs
    exact start_of_mark? hc
  | word w =>
    obtain rfl := Option.some.inj hs
    simp [step, endWith, not_isWordChar_of_mark? hc, hsingle, start_of_mark? hc]
  | identifierQuote body =>
    obtain rfl := Option.some.inj hs
    simp [step, endWith, hdouble, start_of_mark? hc]
  | literalQuote marked body =>
    obtain rfl := Option.some.inj hs
    simp [step, endWith, hsingle, start_of_mark? hc]
  | identifier | literal | backslash => cases hs

/-- **A text up to a mark is read on its own**, and so is what follows
the mark. -/
theorem scan_append_cons {xs ys : List Char} {ts us : List Token} {c : Char} {t : Token}
    (hxs : scan xs = some ts) (hc : mark? c = some t) (hys : scan ys = some us) :
    scan (xs ++ c :: ys) = some (ts ++ t :: us) := by
  obtain ⟨last, hlast, rfl⟩ := Option.map_eq_some_iff.mp hxs
  obtain ⟨rest, hrest, rfl⟩ := Option.map_eq_some_iff.mp hys
  simp [scan, run_append, run, step_of_close hlast hc, hrest]

/-- A mark at the start of a text. -/
theorem scan_cons {ys : List Char} {us : List Token} {c : Char} {t : Token}
    (hc : mark? c = some t) (hys : scan ys = some us) : scan (c :: ys) = some (t :: us) :=
  scan_append_cons scan_nil hc hys

/-- A mark at the end of a text. -/
theorem scan_append_singleton {xs : List Char} {ts : List Token} {c : Char} {t : Token}
    (hxs : scan xs = some ts) (hc : mark? c = some t) : scan (xs ++ [c]) = some (ts ++ [t]) :=
  scan_append_cons hxs hc scan_nil

end Sql

end LayerQuery
