import LayerQuery.Proofs.Lexing
/-!
# What the reader reads

A text is read cleanly to a document exactly if it is a text of that
document (`read_eq_iff_isTextOf`): the machine takes the grammar and
nothing else. Both directions are about the machine in the midst of a
text. Where a value may come it reads a spelled value and goes on with
what follows (`completes_of_spells`), and whatever lets it complete a
document from there starts with a spelled value
(`exists_spells_of_completes`).

Lists and objects differ in what their parts are and in nothing else that
matters here. What they share is an `Enclosure`, and the commas between
parts are walked for an enclosure once.
-/

namespace LayerQuery

namespace Json

/-- The phases in which spaces may come and something has to. -/
def Phase.IsIdle : Phase → Prop
  | .value | .firstItem | .firstName | .name | .colon | .after => True
  | _ => False

namespace State

/-- The machine reads the characters to their end and then has the document, complete. -/
def Completes (s : State) (cs : List Char) (d : Document) : Prop :=
  (scan s cs).settle.phase = .ended d

variable {stack : List Frame} {phase : Phase} {cs rest spaces : List Char} {d e : Document}

theorem completes_cons {s : State} {c : Char} :
    Completes s (c :: cs) d ↔ Completes (s.step c) cs d :=
  Iff.rfl

theorem not_completes_broken : ¬ Completes ⟨stack, .broken⟩ cs e := by
  induction cs with
  | nil => exact Phase.noConfusion
  | cons c cs ih => exact ih

theorem not_completes_trailing : ¬ Completes ⟨stack, .trailing d⟩ cs e := by
  induction cs with
  | nil => exact Phase.noConfusion
  | cons c cs ih => exact ih

/-! ## Spaces -/

theorem step_of_isSpace (h : phase.IsIdle) {c : Char} (hc : isSpace c = true) :
    step ⟨stack, phase⟩ c = ⟨stack, phase⟩ := by
  cases phase <;> first | exact absurd h id | exact if_pos hc

theorem completes_spaces (h : phase.IsIdle) (hspaces : IsSpaces spaces) :
    Completes ⟨stack, phase⟩ (spaces ++ cs) d ↔ Completes ⟨stack, phase⟩ cs d := by
  induction spaces with
  | nil => rfl
  | cons c spaces ih =>
    obtain ⟨hc, hspaces⟩ := List.forall_mem_cons.mp hspaces
    rw [← ih hspaces]
    exact iff_of_eq (congrArg (Completes · (spaces ++ cs) d) (step_of_isSpace h hc))

theorem step_of_isIdle (h : phase.IsIdle) (c : Char) :
    step ⟨stack, phase⟩ c = stepClosed ⟨stack, phase⟩ c := by
  cases phase <;> first | exact absurd h id | rfl

/-- After spaces something comes. -/
theorem exists_of_completes_idle (h : phase.IsIdle) (hc : Completes ⟨stack, phase⟩ cs d) :
    ∃ spaces c rest, cs = spaces ++ c :: rest ∧ IsSpaces spaces ∧ isSpace c = false ∧
      Completes (stepClosed ⟨stack, phase⟩ c) rest d := by
  induction cs with
  | nil => cases phase <;> first | exact absurd h id | cases hc
  | cons c cs ih =>
    cases hspace : isSpace c with
    | true =>
      have hnext : Completes ⟨stack, phase⟩ cs d := step_of_isSpace h hspace ▸ hc
      obtain ⟨spaces, c', rest, rfl, hspaces, hc', hrest⟩ := ih hnext
      exact ⟨c :: spaces, c', rest, rfl, List.forall_mem_cons.mpr ⟨hspace, hspaces⟩, hc', hrest⟩
    | false =>
      have hstep : step ⟨stack, phase⟩ c = stepClosed ⟨stack, phase⟩ c := step_of_isIdle h c
      exact ⟨[], c, cs, rfl, isSpaces_nil, hspace, hstep ▸ hc⟩

/-- Only spaces follow a complete document. -/
theorem completes_ended_iff : Completes ⟨stack, .ended d⟩ cs e ↔ IsSpaces cs ∧ d = e := by
  induction cs with
  | nil =>
    constructor
    · intro h
      exact ⟨isSpaces_nil, Phase.ended.inj h⟩
    · rintro ⟨-, rfl⟩
      rfl
  | cons c cs ih =>
    have hstep : step ⟨stack, .ended d⟩ c =
        if isSpace c then ⟨stack, .ended d⟩ else ⟨stack, .trailing d⟩ := rfl
    rw [completes_cons, hstep, IsSpaces, List.forall_mem_cons]
    split
    · next hspace => rw [ih, and_iff_right hspace]; rfl
    · next hspace =>
      exact ⟨fun h => absurd h not_completes_trailing, fun h => absurd h.1.1 hspace⟩

/-! ## Words and strings -/

theorem completes_word_iff {w : Char} {ws : List Char} {meaning : Document} :
    Completes ⟨stack, .word (w :: ws) meaning⟩ cs e ↔
      ∃ rest, cs = w :: ws ++ rest ∧ Completes (deliver stack meaning) rest e := by
  induction ws generalizing w cs with
  | nil =>
    cases cs with
    | nil => exact ⟨Phase.noConfusion, fun ⟨_, h, _⟩ => absurd h (List.cons_ne_nil _ _).symm⟩
    | cons c cs =>
      have hstep : step ⟨stack, .word [w] meaning⟩ c =
          if c = w then deliver stack meaning else ⟨stack, .broken⟩ := rfl
      rw [completes_cons, hstep]
      split
      · next hc => subst hc; simp
      · next hc => simp [not_completes_broken, hc]
  | cons w' ws ih =>
    cases cs with
    | nil => exact ⟨Phase.noConfusion, fun ⟨_, h, _⟩ => absurd h (List.cons_ne_nil _ _).symm⟩
    | cons c cs =>
      have hstep : step ⟨stack, .word (w :: w' :: ws) meaning⟩ c =
          if c = w then ⟨stack, .word (w' :: ws) meaning⟩ else ⟨stack, .broken⟩ := rfl
      rw [completes_cons, hstep]
      split
      · next hc => subst hc; rw [ih]; simp
      · next hc => simp [not_completes_broken, hc]

/-! A string ends with a quote that is not escaped, and takes any other character that it can. -/

theorem step_string_of_quote {s : Chars} {c : Char} (h : c = '"' ∧ s.escape = .none) :
    step ⟨stack, .string s⟩ c = deliverString stack s.text :=
  if_pos h

theorem step_string_of_add {s s' : Chars} {c : Char} (h : ¬ (c = '"' ∧ s.escape = .none))
    (hadd : s.add? c = some s') : step ⟨stack, .string s⟩ c = ⟨stack, .string s'⟩ := by
  refine (if_neg h).trans ?_
  rw [hadd]

theorem step_string_of_refuse {s : Chars} {c : Char} (h : ¬ (c = '"' ∧ s.escape = .none))
    (hadd : s.add? c = none) : step ⟨stack, .string s⟩ c = ⟨stack, .broken⟩ := by
  refine (if_neg h).trans ?_
  rw [hadd]
  rfl

/-- A string goes on to a quote that is not escaped. -/
theorem completes_string_iff {s : Chars} :
    Completes ⟨stack, .string s⟩ cs e ↔
      ∃ inside rest s', cs = inside ++ '"' :: rest ∧ s.addAll? inside = some s' ∧
        s'.escape = .none ∧ Completes (deliverString stack s'.text) rest e := by
  induction cs generalizing s with
  | nil => exact ⟨Phase.noConfusion, fun ⟨_, _, _, h, _⟩ => by simp at h⟩
  | cons c cs ih =>
    rw [completes_cons]
    constructor
    · intro h
      by_cases hquote : c = '"' ∧ s.escape = .none
      · rw [step_string_of_quote hquote] at h
        obtain ⟨rfl, hescape⟩ := hquote
        exact ⟨[], cs, s, rfl, rfl, hescape, h⟩
      · cases hadd : s.add? c with
        | none =>
          rw [step_string_of_refuse hquote hadd] at h
          exact absurd h not_completes_broken
        | some next =>
          rw [step_string_of_add hquote hadd] at h
          obtain ⟨inside, rest, s', rfl, hinside, hescape, hrest⟩ := ih.mp h
          refine ⟨c :: inside, rest, s', rfl, ?_, hescape, hrest⟩
          rw [Chars.addAll?, if_neg hquote, hadd, Option.bind_some, hinside]
    · rintro ⟨inside, rest, s', hcs, hinside, hescape, hrest⟩
      cases inside with
      | nil =>
        obtain ⟨rfl, rfl⟩ := List.cons.inj hcs
        obtain rfl := Option.some.inj hinside
        rwa [step_string_of_quote ⟨rfl, hescape⟩]
      | cons c' inside =>
        obtain ⟨rfl, rfl⟩ := List.cons.inj hcs
        rw [Chars.addAll?] at hinside
        split at hinside
        · cases hinside
        · next hquote =>
          obtain ⟨next, hnext, hinside⟩ := Option.bind_eq_some_iff.mp hinside
          rw [step_string_of_add hquote hnext]
          exact ih.mpr ⟨inside, rest, s', rfl, hinside, hescape, hrest⟩

/-- After the opening quote comes the rest of a spelled string. -/
theorem completes_quote_iff :
    Completes ⟨stack, .string .start⟩ cs e ↔
      ∃ t body rest, '"' :: cs = body ++ rest ∧ SpellsString t body ∧
        Completes (deliverString stack t) rest e := by
  rw [completes_string_iff]
  constructor
  · rintro ⟨inside, rest, s', rfl, hinside, hescape, hrest⟩
    have hspells := Chars.exists_addAll?_start_iff.mp ⟨s', hinside, hescape, rfl⟩
    exact ⟨s'.text, _, rest, by simp, hspells, hrest⟩
  · rintro ⟨t, body, rest, hcs, hspells, hrest⟩
    have hspells' := hspells
    cases hspells with
    | @mk ps inside hps =>
      obtain ⟨s', hinside, hescape, htext⟩ := Chars.exists_addAll?_start_iff.mpr hspells'
      have hcs' : cs = inside ++ '"' :: rest := by simpa using hcs
      exact ⟨inside, rest, s', hcs', hinside, hescape, htext ▸ hrest⟩

/-- A spelled string is read from its opening quote on. -/
theorem completes_spellsString {s : State} {t : Option String}
    (hs : step s '"' = ⟨stack, .string .start⟩) (h : SpellsString t cs)
    (hrest : Completes (deliverString stack t) rest e) : Completes s (cs ++ rest) e := by
  obtain ⟨inside, rfl⟩ := h.exists_cons
  rw [List.cons_append, completes_cons, hs]
  exact completes_quote_iff.mpr ⟨t, '"' :: inside, rest, rfl, h, hrest⟩

/-! ## Numerals

A numeral ends with the first character that cannot follow. Whatever may
stand after a value is such a character, so the reader stops where the
grammar does. -/

/-- The characters with which more can follow a complete value. -/
def Follows (c : Char) : Prop :=
  isSpace c = true ∨ c = ',' ∨ c = ']' ∨ c = '\x7d'

theorem follows_of_completes_deliver {c : Char} (h : Completes (deliver stack d) (c :: cs) e) :
    Follows c := by
  by_cases hspace : isSpace c = true
  · exact .inl hspace
  cases stack with
  | nil => exact .inl ((List.forall_mem_cons.mp (completes_ended_iff.mp h).1).1)
  | cons frame stack =>
    cases frame with
    | array items =>
      have hstep : step (deliver (.array items :: stack) d) c =
          if isSpace c then ⟨.array (d :: items) :: stack, .after⟩
          else if c = ',' then ⟨.array (d :: items) :: stack, .value⟩
          else if c = ']' then deliver stack (.array (d :: items).reverse true)
          else ⟨.array (d :: items) :: stack, .broken⟩ := rfl
      rw [completes_cons, hstep, if_neg hspace] at h
      by_cases hcomma : c = ','
      · exact .inr (.inl hcomma)
      by_cases hclose : c = ']'
      · exact .inr (.inr (.inl hclose))
      rw [if_neg hcomma, if_neg hclose] at h
      exact absurd h not_completes_broken
    | member members name =>
      have hstep : step (deliver (.member members name :: stack) d) c =
          if isSpace c then ⟨.object ((name, d) :: members) :: stack, .after⟩
          else if c = ',' then ⟨.object ((name, d) :: members) :: stack, .name⟩
          else if c = '\x7d' then deliver stack (.object ((name, d) :: members).reverse true)
          else ⟨.object ((name, d) :: members) :: stack, .broken⟩ := rfl
      rw [completes_cons, hstep, if_neg hspace] at h
      by_cases hcomma : c = ','
      · exact .inr (.inl hcomma)
      by_cases hclose : c = '\x7d'
      · exact .inr (.inr (.inr hclose))
      rw [if_neg hcomma, if_neg hclose] at h
      exact absurd h not_completes_broken
    | object members => exact absurd h not_completes_broken

theorem Follows.add?_eq_none {c : Char} (h : Follows c) (l : Lexeme) : l.add? c = none := by
  have hc : c = ' ' ∨ c = '\t' ∨ c = '\n' ∨ c = '\r' ∨ c = ',' ∨ c = ']' ∨ c = '\x7d' := by
    simpa [Follows, isSpace, or_assoc] using h
  obtain ⟨stage, negative, whole, fraction, exponentNegative, exponent⟩ := l
  rcases hc with rfl | rfl | rfl | rfl | rfl | rfl | rfl <;> cases stage <;> rfl

theorem settle_deliver (stack : List Frame) (d : Document) :
    settle (deliver stack d) = deliver stack d := by
  unfold deliver
  split <;> rfl

theorem step_deliver (stack : List Frame) (d : Document) (c : Char) :
    step (deliver stack d) c = stepClosed (deliver stack d) c := by
  unfold deliver
  split <;> rfl

variable {l l' : Lexeme} {n : Numeral} {c : Char}

theorem settle_number (h : l.numeral? = some n) :
    settle ⟨stack, .number l⟩ = deliver stack (.number n) := by
  simp only [settle, h]

theorem settle_number_of_none (h : l.numeral? = none) :
    settle ⟨stack, .number l⟩ = ⟨stack, .broken⟩ := by
  simp only [settle, h, halt]

theorem step_number (h : l.add? c = some l') :
    step ⟨stack, .number l⟩ c = ⟨stack, .number l'⟩ := by
  simp only [step, h]

theorem step_number_of_none (h : l.add? c = none) :
    step ⟨stack, .number l⟩ c = stepClosed (settle ⟨stack, .number l⟩) c := by
  simp only [step, h]

/-- A numeral that can go no further is a complete value. -/
theorem completes_number_iff_of_stop (hn : l.numeral? = some n)
    (hstop : ∀ c ∈ cs.head?, l.add? c = none) :
    Completes ⟨stack, .number l⟩ cs e ↔ Completes (deliver stack (.number n)) cs e := by
  cases cs with
  | nil => rw [Completes, Completes, scan_nil, scan_nil, settle_number hn, settle_deliver]
  | cons c cs =>
    rw [completes_cons, completes_cons, step_number_of_none (hstop c rfl), settle_number hn,
      step_deliver]

theorem exists_of_completes_number (h : Completes ⟨stack, .number l⟩ cs e) :
    ∃ digits rest l' n, cs = digits ++ rest ∧ l.addAll? digits = some l' ∧
      l'.numeral? = some n ∧ Completes (deliver stack (.number n)) rest e := by
  -- what cannot go on has to be a numeral, or the machine breaks
  have hends (cs : List Char) (l : Lexeme) (hstop : ∀ c ∈ cs.head?, l.add? c = none)
      (h : Completes ⟨stack, .number l⟩ cs e) :
      ∃ n, l.numeral? = some n ∧ Completes (deliver stack (.number n)) cs e := by
    cases hn : l.numeral? with
    | some n => exact ⟨n, rfl, (completes_number_iff_of_stop hn hstop).mp h⟩
    | none =>
      have hbroken : Completes ⟨stack, .broken⟩ cs e := by
        cases cs with
        | nil => rwa [Completes, scan_nil, settle_number_of_none hn] at h
        | cons c cs =>
          rwa [completes_cons, step_number_of_none (hstop c rfl), settle_number_of_none hn] at h
      exact absurd hbroken not_completes_broken
  induction cs generalizing l with
  | nil =>
    obtain ⟨n, hn, hrest⟩ := hends [] l (fun c hc => absurd hc (Option.not_mem_none c)) h
    exact ⟨[], [], l, n, rfl, rfl, hn, hrest⟩
  | cons c cs ih =>
    cases hadd : l.add? c with
    | some l' =>
      rw [completes_cons, step_number hadd] at h
      obtain ⟨digits, rest, last, n, rfl, hdigits, hn, hrest⟩ := ih h
      refine ⟨c :: digits, rest, last, n, rfl, ?_, hn, hrest⟩
      rw [Lexeme.addAll?, hadd, Option.bind_some, hdigits]
    | none =>
      obtain ⟨n, hn, hrest⟩ := hends (c :: cs) l (fun _ hc => Option.some.inj hc ▸ hadd) h
      exact ⟨[], c :: cs, l, n, rfl, rfl, hn, hrest⟩

theorem completes_number {digits : List Char} (hdigits : l.addAll? digits = some l')
    (hn : l'.numeral? = some n) (hrest : Completes (deliver stack (.number n)) rest e) :
    Completes ⟨stack, .number l⟩ (digits ++ rest) e := by
  induction digits generalizing l with
  | nil =>
    obtain rfl := Option.some.inj hdigits
    refine (completes_number_iff_of_stop hn fun c hc => ?_).mpr hrest
    obtain ⟨rest, rfl⟩ := List.head?_eq_some_iff.mp hc
    exact (follows_of_completes_deliver hrest).add?_eq_none l
  | cons c digits ih =>
    obtain ⟨next, hnext, hdigits⟩ := Option.bind_eq_some_iff.mp hdigits
    rw [List.cons_append, completes_cons, step_number hnext]
    exact ih hdigits

end State

/-! ## Commas

What lists and objects share: parts, each with a comma or the closing
bracket after it. -/

open State

/-- A kind of document that holds parts between brackets, and how the
machine goes from part to part. -/
structure Enclosure (α : Type) where
  /-- What is open while parts are read, the last one first. -/
  frame : List α → Frame
  /-- Before the first part. -/
  first : Phase
  /-- Before any other part. -/
  due : Phase
  close : Char
  whole : List α → Document
  spells : α → List Char → Prop
  first_isIdle : first.IsIdle
  due_isIdle : due.IsIdle
  close_not_space : isSpace close = false
  next_comma (parts : List α) (stack : List Frame) :
    next (frame parts :: stack) ',' = ⟨frame parts :: stack, due⟩
  next_close (parts : List α) (stack : List Frame) :
    next (frame parts :: stack) close = deliver stack (whole parts.reverse)
  next_other (parts : List α) (stack : List Frame) {c : Char} (hcomma : c ≠ ',')
    (hclose : c ≠ close) : next (frame parts :: stack) c = ⟨frame parts :: stack, .broken⟩
  first_close (stack : List Frame) :
    stepClosed ⟨frame [] :: stack, first⟩ close = deliver stack (whole [])
  first_other (stack : List Frame) {c : Char} (hspace : isSpace c = false) (hclose : c ≠ close) :
    stepClosed ⟨frame [] :: stack, first⟩ c = stepClosed ⟨frame [] :: stack, due⟩ c
  due_close (parts : List α) (stack : List Frame) :
    stepClosed ⟨frame parts :: stack, due⟩ close = ⟨frame parts :: stack, .broken⟩

namespace Enclosure

/-- Lists are enclosures of items. -/
def array : Enclosure Document where
  frame := .array
  first := .firstItem
  due := .value
  close := ']'
  whole items := .array items true
  spells := Document.Spells
  first_isIdle := trivial
  due_isIdle := trivial
  close_not_space := rfl
  next_comma _ _ := rfl
  next_close _ _ := rfl
  next_other _ _ _ hcomma hclose := (if_neg hcomma).trans (if_neg hclose)
  first_close _ := rfl
  first_other stack c hspace hclose := by
    simp only [stepClosed, hspace, Bool.false_eq_true, if_false, if_neg hclose]
  due_close _ _ := rfl

/-- Objects are enclosures of members. -/
def object : Enclosure Member where
  frame := .object
  first := .firstName
  due := .name
  close := '\x7d'
  whole members := .object members true
  spells m := SpellsMember m.1 (Document.Spells m.2)
  first_isIdle := trivial
  due_isIdle := trivial
  close_not_space := rfl
  next_comma _ _ := rfl
  next_close _ _ := rfl
  next_other _ _ _ hcomma hclose := (if_neg hcomma).trans (if_neg hclose)
  first_close _ := rfl
  first_other stack c hspace hclose := by
    simp only [stepClosed, hspace, Bool.false_eq_true, if_false, if_neg hclose, halt]
  due_close _ _ := rfl

variable {α : Type} (E : Enclosure α) {stack : List Frame} {parts xs : List α} {e : Document}
variable {cs body rest : List Char}

/-- The reader takes a spelled part where one is due, and goes on after it. -/
def Takes (stack : List Frame) (e : Document) (x : α) : Prop :=
  ∀ parts body rest, E.spells x body → Completes ⟨E.frame (x :: parts) :: stack, .after⟩ rest e →
    Completes ⟨E.frame parts :: stack, E.due⟩ (body ++ rest) e

/-- What lets the machine complete where a part is due starts with a spelled part, if there are at
most so many characters. -/
def Finds (stack : List Frame) (e : Document) (length : Nat) : Prop :=
  ∀ parts cs, cs.length ≤ length → Completes ⟨E.frame parts :: stack, E.due⟩ cs e →
    ∃ x before body rest, cs = before ++ (body ++ rest) ∧ IsSpaces before ∧ E.spells x body ∧
      Completes ⟨E.frame (x :: parts) :: stack, .after⟩ rest e

theorem completes_comma (h : Completes ⟨E.frame parts :: stack, E.due⟩ cs e) :
    Completes ⟨E.frame parts :: stack, .after⟩ (',' :: cs) e := by
  rw [← E.next_comma] at h
  exact h

theorem completes_close (h : Completes (deliver stack (E.whole parts.reverse)) cs e) :
    Completes ⟨E.frame parts :: stack, .after⟩ (E.close :: cs) e := by
  have hstep : step ⟨E.frame parts :: stack, .after⟩ E.close =
      if isSpace E.close then ⟨E.frame parts :: stack, .after⟩
      else next (E.frame parts :: stack) E.close := rfl
  rw [completes_cons, hstep, E.close_not_space, E.next_close]
  exact h

/-- After a part comes a comma or the closing bracket. -/
theorem exists_of_completes_after (h : Completes ⟨E.frame parts :: stack, .after⟩ cs e) :
    ∃ spaces rest, IsSpaces spaces ∧
      (cs = spaces ++ ',' :: rest ∧ Completes ⟨E.frame parts :: stack, E.due⟩ rest e ∨
        cs = spaces ++ E.close :: rest ∧
          Completes (deliver stack (E.whole parts.reverse)) rest e) := by
  have hidle : Phase.after.IsIdle := trivial
  obtain ⟨spaces, c, rest, rfl, hspaces, hc, hrest⟩ := exists_of_completes_idle hidle h
  have hstep : stepClosed ⟨E.frame parts :: stack, .after⟩ c =
      next (E.frame parts :: stack) c := by
    simp only [stepClosed, hc, Bool.false_eq_true, if_false]
  rw [hstep] at hrest
  refine ⟨spaces, rest, hspaces, ?_⟩
  by_cases hcomma : c = ','
  · subst hcomma
    rw [E.next_comma] at hrest
    exact .inl ⟨rfl, hrest⟩
  by_cases hclose : c = E.close
  · subst hclose
    rw [E.next_close] at hrest
    exact .inr ⟨rfl, hrest⟩
  · rw [E.next_other parts stack hcomma hclose] at hrest
    exact absurd hrest not_completes_broken

/-- Before the first part there may also be the closing bracket. -/
theorem completes_first_iff :
    Completes ⟨E.frame [] :: stack, E.first⟩ cs e ↔
      Completes ⟨E.frame [] :: stack, E.due⟩ cs e ∨
        ∃ spaces rest, cs = spaces ++ E.close :: rest ∧ IsSpaces spaces ∧
          Completes (deliver stack (E.whole [])) rest e := by
  constructor
  · intro h
    obtain ⟨spaces, c, rest, rfl, hspaces, hc, hrest⟩ := exists_of_completes_idle E.first_isIdle h
    by_cases hclose : c = E.close
    · subst hclose
      rw [E.first_close] at hrest
      exact .inr ⟨spaces, rest, rfl, hspaces, hrest⟩
    · rw [E.first_other stack hc hclose, ← step_of_isIdle E.due_isIdle] at hrest
      exact .inl ((completes_spaces E.due_isIdle hspaces).mpr hrest)
  · rintro (h | ⟨spaces, rest, rfl, hspaces, hrest⟩)
    · obtain ⟨spaces, c, rest, rfl, hspaces, hc, hrest⟩ := exists_of_completes_idle E.due_isIdle h
      refine (completes_spaces E.first_isIdle hspaces).mpr ?_
      have hclose : c ≠ E.close := by
        rintro rfl
        rw [E.due_close] at hrest
        exact not_completes_broken hrest
      rw [completes_cons, step_of_isIdle E.first_isIdle, E.first_other stack hc hclose]
      exact hrest
    · refine (completes_spaces E.first_isIdle hspaces).mpr ?_
      rw [completes_cons, step_of_isIdle E.first_isIdle, E.first_close]
      exact hrest

theorem completes_part {x : α} (htakes : E.Takes stack e x) {front : List Char}
    (h : Padded (E.spells x) front)
    (hrest : Completes ⟨E.frame (x :: parts) :: stack, .after⟩ rest e) :
    Completes ⟨E.frame parts :: stack, E.due⟩ (front ++ rest) e := by
  have hidle : Phase.after.IsIdle := trivial
  obtain ⟨before, inside, after, hbefore, hinside, hafter, rfl⟩ := h
  rw [List.append_assoc, List.append_assoc]
  refine (completes_spaces E.due_isIdle hbefore).mpr (htakes parts inside _ hinside ?_)
  exact (completes_spaces hidle hafter).mpr hrest

/-- **Parts with commas between them are read**, each one being taken. -/
theorem completes_due (hxs : xs ≠ []) (htakes : ∀ x ∈ xs, E.Takes stack e x)
    (h : Separated (xs.map E.spells) body)
    (hrest : Completes (deliver stack (E.whole (parts.reverse ++ xs))) rest e) :
    Completes ⟨E.frame parts :: stack, E.due⟩ (body ++ E.close :: rest) e := by
  induction xs generalizing parts body with
  | nil => exact absurd rfl hxs
  | cons x xs ih =>
    obtain ⟨hx, htakes⟩ := List.forall_mem_cons.mp htakes
    have hwhole : parts.reverse ++ x :: xs = (x :: parts).reverse ++ xs := by simp
    rw [hwhole] at hrest
    cases xs with
    | nil =>
      rw [List.append_nil] at hrest
      exact E.completes_part hx h (E.completes_close hrest)
    | cons y ys =>
      obtain ⟨front, more, hfront, hmore, rfl⟩ := h
      rw [List.append_assoc, List.cons_append]
      have hnext := ih (List.cons_ne_nil y ys) htakes hmore hrest
      exact E.completes_part hx hfront (E.completes_comma hnext)

/-- **What is read where parts are due is parts with commas between them.** -/
theorem exists_of_completes_due {length : Nat} (hfinds : E.Finds stack e length)
    (hlength : cs.length ≤ length) (h : Completes ⟨E.frame parts :: stack, E.due⟩ cs e) :
    ∃ x xs body rest, cs = body ++ E.close :: rest ∧
      Separated ((x :: xs).map E.spells) body ∧
      Completes (deliver stack (E.whole (parts.reverse ++ x :: xs))) rest e := by
  induction hn : cs.length using Nat.strongRecOn generalizing cs parts with
  | ind n ih =>
    subst hn
    obtain ⟨x, before, inside, rest, rfl, hbefore, hinside, hrest⟩ := hfinds parts cs hlength h
    obtain ⟨after, rest, hafter, hnext⟩ := E.exists_of_completes_after hrest
    have hpadded : Padded (E.spells x) (before ++ (inside ++ after)) :=
      ⟨before, inside, after, hbefore, hinside, hafter, rfl⟩
    rcases hnext with ⟨rfl, hnext⟩ | ⟨rfl, hnext⟩
    · have hshort : rest.length < (before ++ (inside ++ (after ++ ',' :: rest))).length := by
        simp only [List.length_append, List.length_cons]
        omega
      obtain ⟨y, ys, body, rest, rfl, hbody, hlast⟩ := ih _ hshort (by omega) hnext rfl
      refine ⟨x, y :: ys, before ++ (inside ++ after) ++ ',' :: body, rest, by simp,
        ⟨_, body, hpadded, hbody, rfl⟩, ?_⟩
      have hwhole : parts.reverse ++ x :: y :: ys = (x :: parts).reverse ++ y :: ys := by simp
      rwa [hwhole]
    · refine ⟨x, [], before ++ (inside ++ after), rest, by simp, hpadded, ?_⟩
      rwa [List.reverse_cons] at hnext

/-- Between its brackets an enclosure is parts with commas between them. -/
theorem completes_first (htakes : ∀ x ∈ xs, E.Takes stack e x)
    (h : Separated (xs.map E.spells) body) (hrest : Completes (deliver stack (E.whole xs)) rest e) :
    Completes ⟨E.frame [] :: stack, E.first⟩ (body ++ E.close :: rest) e := by
  cases xs with
  | nil => exact E.completes_first_iff.mpr (.inr ⟨body, rest, rfl, h, hrest⟩)
  | cons x xs =>
    exact E.completes_first_iff.mpr (.inl (E.completes_due (List.cons_ne_nil x xs) htakes h hrest))

theorem exists_of_completes_first {length : Nat} (hfinds : E.Finds stack e length)
    (hlength : cs.length ≤ length) (h : Completes ⟨E.frame [] :: stack, E.first⟩ cs e) :
    ∃ xs body rest, cs = body ++ E.close :: rest ∧ Separated (xs.map E.spells) body ∧
      Completes (deliver stack (E.whole xs)) rest e := by
  rcases E.completes_first_iff.mp h with h | ⟨spaces, rest, rfl, hspaces, hrest⟩
  · obtain ⟨x, xs, body, rest, rfl, hbody, hrest⟩ := E.exists_of_completes_due hfinds hlength h
    exact ⟨x :: xs, body, rest, rfl, hbody, hrest⟩
  · exact ⟨[], spaces, rest, rfl, hspaces, hrest⟩

end Enclosure

namespace State

variable {stack : List Frame} {cs body rest : List Char} {d e : Document}

/-! ## What the grammar spells is read -/

theorem stepClosed_of_start? {c : Char} {l : Lexeme} (h : Lexeme.start? c = some l) :
    stepClosed ⟨stack, .value⟩ c = ⟨stack, .number l⟩ := by
  have hne (c' : Char) (h' : Lexeme.start? c' = none) : c ≠ c' := by
    rintro rfl
    cases h' ▸ h
  have hspace : isSpace c = false := by
    simp [isSpace, hne ' ' rfl, hne '\t' rfl, hne '\n' rfl, hne '\r' rfl]
  simp only [stepClosed, hspace, Bool.false_eq_true, if_false, begin, if_neg (hne '\x7b' rfl),
    if_neg (hne '[' rfl), if_neg (hne '"' rfl), if_neg (hne 'n' rfl), if_neg (hne 't' rfl),
    if_neg (hne 'f' rfl), h]

/-- Where no name is due a string is a value. -/
theorem deliverString_eq {text : Option String} (h : ∀ members rest, stack ≠ .object members :: rest) :
    deliverString stack text = deliver stack (.string text) := by
  unfold deliverString
  split
  · exact absurd rfl (h _ _)
  · rfl

theorem ne_object_of_completes (h : Completes (deliver stack d) rest e)
    (members : List Member) (frames : List Frame) : stack ≠ .object members :: frames := by
  rintro rfl
  exact not_completes_broken h

/-- The reader takes a spelled document where a value may come, and goes on after it. -/
def Accepts (d : Document) : Prop :=
  ∀ stack body rest e, d.Spells body → Completes (deliver stack d) rest e →
    Completes ⟨stack, .value⟩ (body ++ rest) e

/-- With its value a member is taken. -/
theorem takes_member {m : Member} (h : Accepts m.2) : Enclosure.object.Takes stack e m := by
  intro members body rest hspells hrest
  obtain ⟨front, before, after, inside, hname, hbefore, hafter, hvalue, rfl⟩ := hspells
  have hcolon : Phase.colon.IsIdle := trivial
  have hidle : Phase.value.IsIdle := trivial
  have hafterName : Completes ⟨.member members m.1 :: stack, .colon⟩
      (before ++ ':' :: (after ++ (inside ++ rest))) e := by
    refine (completes_spaces hcolon hbefore).mpr ?_
    refine completes_cons.mpr ((completes_spaces hidle hafter).mpr ?_)
    exact h _ inside rest e hvalue hrest
  rw [List.append_assoc, List.append_assoc, List.cons_append, List.append_assoc]
  exact completes_spellsString rfl hname hafterName

/-- **The reader takes every document that has a spelling.** -/
theorem accepts (d : Document) : Accepts d := by
  induction d using Document.inside_induction with
  | null =>
    intro stack body rest e h hrest
    rw [Document.Spells] at h
    subst h
    exact completes_cons.mpr (completes_word_iff.mpr ⟨rest, rfl, hrest⟩)
  | boolean b =>
    intro stack body rest e h hrest
    rw [Document.Spells] at h
    subst h
    cases b with
    | true => exact completes_cons.mpr (completes_word_iff.mpr ⟨rest, rfl, hrest⟩)
    | false => exact completes_cons.mpr (completes_word_iff.mpr ⟨rest, rfl, hrest⟩)
  | number n =>
    intro stack body rest e h hrest
    rw [Document.Spells] at h
    have hnumeral := numeralOf?_eq_some_iff.mpr h
    cases body with
    | nil => cases hnumeral
    | cons c digits =>
      obtain ⟨l, hstart, hnumeral⟩ := Option.bind_eq_some_iff.mp hnumeral
      obtain ⟨l', hdigits, hn⟩ := Option.bind_eq_some_iff.mp hnumeral
      have hidle : Phase.value.IsIdle := trivial
      rw [List.cons_append, completes_cons, step_of_isIdle hidle, stepClosed_of_start? hstart]
      exact completes_number hdigits hn hrest
  | string t =>
    intro stack body rest e h hrest
    rw [Document.Spells] at h
    refine completes_spellsString rfl h ?_
    rwa [deliverString_eq (ne_object_of_completes hrest)]
  | array items closed ih =>
    intro stack body rest e h hrest
    rw [Document.Spells, Document.spellsItems_eq_map] at h
    obtain ⟨rfl, inside, hinside, rfl⟩ := h
    have htakes : ∀ d ∈ items, Enclosure.array.Takes stack e d :=
      fun d hd parts body rest => ih d hd (.array parts :: stack) body rest e
    have hfirst : Completes (step ⟨stack, .value⟩ '[') (inside ++ ']' :: rest) e :=
      Enclosure.array.completes_first htakes hinside hrest
    rw [List.cons_append, List.append_assoc]
    exact completes_cons.mpr hfirst
  | object members closed ih =>
    intro stack body rest e h hrest
    rw [Document.Spells, Document.spellsMembers_eq_map] at h
    obtain ⟨rfl, inside, hinside, rfl⟩ := h
    have htakes : ∀ m ∈ members, Enclosure.object.Takes stack e m := fun m hm =>
      takes_member (ih m hm)
    have hfirst : Completes (step ⟨stack, .value⟩ '\x7b') (inside ++ '\x7d' :: rest) e :=
      Enclosure.object.completes_first htakes hinside hrest
    rw [List.cons_append, List.append_assoc]
    exact completes_cons.mpr hfirst
  | broken =>
    intro stack body rest e h
    rw [Document.Spells] at h
    exact absurd h id

/-! ## What is read is what the grammar spells -/

/-- What lets the machine complete where a value may come starts with a
spelled document, if there are at most so many characters. -/
def Yields (length : Nat) : Prop :=
  ∀ stack cs e, cs.length ≤ length → (∀ members rest, stack ≠ .object members :: rest) →
    Completes ⟨stack, .value⟩ cs e →
      ∃ d before body rest, cs = before ++ (body ++ rest) ∧ IsSpaces before ∧ d.Spells body ∧
        Completes (deliver stack d) rest e

/-- Where one character alone can come, that one came. -/
theorem of_completes_guarded {s s' : State} {c c' : Char} (hc : isSpace c = false)
    (hs : stepClosed s c = if isSpace c then s else if c = c' then s' else s.halt)
    (h : Completes (stepClosed s c) cs e) : c = c' ∧ Completes s' cs e := by
  rw [hs, hc, if_neg Bool.false_ne_true] at h
  split at h
  · next heq => exact ⟨heq, h⟩
  · exact absurd h not_completes_broken

theorem Yields.finds_item {length : Nat} (h : Yields length) :
    Enclosure.array.Finds stack e length := by
  intro items cs hlength hcs
  exact h _ cs e hlength (fun _ _ => by simp [Enclosure.array]) hcs

theorem Yields.finds_member {length : Nat} (h : Yields length) :
    Enclosure.object.Finds stack e length := by
  intro members cs hlength hcs
  have hnames : Phase.name.IsIdle := trivial
  have hcolons : Phase.colon.IsIdle := trivial
  obtain ⟨before, c, cs, rfl, hbefore, hc, hcs⟩ := exists_of_completes_idle hnames hcs
  obtain ⟨rfl, hcs⟩ := of_completes_guarded hc rfl hcs
  obtain ⟨t, front, cs, heq, hname, hcs⟩ := completes_quote_iff.mp hcs
  obtain ⟨afterName, c, cs, rfl, hafterName, hc, hcs⟩ := exists_of_completes_idle hcolons hcs
  obtain ⟨rfl, hcs⟩ := of_completes_guarded hc rfl hcs
  have hshort : cs.length ≤ length := by
    have htotal := congrArg List.length heq
    simp only [List.length_append, List.length_cons] at htotal hlength
    omega
  have hplace : ∀ ms rest, Frame.member members t :: stack ≠ .object ms :: rest := by
    intro ms rest heq
    cases heq
  obtain ⟨d, beforeValue, body, rest, rfl, hbeforeValue, hbody, hrest⟩ :=
    h _ cs e hshort hplace hcs
  refine ⟨(t, d), before, front ++ (afterName ++ ':' :: (beforeValue ++ body)), rest, ?_, hbefore,
    ⟨front, afterName, beforeValue, body, hname, hafterName, hbeforeValue, hbody, rfl⟩, hrest⟩
  rw [heq]
  simp

/-- A value that has begun is a spelled document, with what follows it. -/
theorem Yields.exists_of_begin {length : Nat} (hyields : Yields length)
    (hlength : cs.length ≤ length) (hstack : ∀ members rest, stack ≠ .object members :: rest)
    {c : Char} (h : Completes (begin stack c) cs e) :
    ∃ d body rest, c :: cs = body ++ rest ∧ d.Spells body ∧ Completes (deliver stack d) rest e := by
  -- of a word the first character has been read
  have hword {w : Char} {ws : List Char} {meaning : Document}
      (hspells : meaning.Spells (c :: w :: ws))
      (h : Completes ⟨stack, .word (w :: ws) meaning⟩ cs e) :
      ∃ d body rest, c :: cs = body ++ rest ∧ d.Spells body ∧
        Completes (deliver stack d) rest e := by
    obtain ⟨rest, rfl, hrest⟩ := completes_word_iff.mp h
    exact ⟨meaning, c :: w :: ws, rest, rfl, hspells, hrest⟩
  unfold begin at h
  split at h
  · next hc =>
    obtain ⟨members, body, rest, rfl, hbody, hrest⟩ :=
      Enclosure.object.exists_of_completes_first hyields.finds_member hlength h
    refine ⟨.object members true, c :: (body ++ ['\x7d']), rest, by simp [Enclosure.object], ?_,
      hrest⟩
    rw [Document.Spells, Document.spellsMembers_eq_map, hc]
    exact ⟨rfl, body, hbody, rfl⟩
  split at h
  · next hc =>
    obtain ⟨items, body, rest, rfl, hbody, hrest⟩ :=
      Enclosure.array.exists_of_completes_first hyields.finds_item hlength h
    refine ⟨.array items true, c :: (body ++ [']']), rest, by simp [Enclosure.array], ?_, hrest⟩
    rw [Document.Spells, Document.spellsItems_eq_map, hc]
    exact ⟨rfl, body, hbody, rfl⟩
  split at h
  · next hc =>
    obtain ⟨t, body, rest, heq, hbody, hrest⟩ := completes_quote_iff.mp h
    rw [deliverString_eq hstack] at hrest
    exact ⟨.string t, body, rest, hc ▸ heq, by rwa [Document.Spells], hrest⟩
  split at h
  · next hc => exact hword (by rw [Document.Spells, hc]; rfl) h
  split at h
  · next hc => exact hword (by rw [Document.Spells, hc]; rfl) h
  split at h
  · next hc => exact hword (by rw [Document.Spells, hc]; rfl) h
  cases hstart : Lexeme.start? c with
  | none =>
    rw [hstart] at h
    exact absurd h not_completes_broken
  | some l =>
    rw [hstart] at h
    obtain ⟨digits, rest, l', n, rfl, hdigits, hn, hrest⟩ := exists_of_completes_number h
    refine ⟨.number n, c :: digits, rest, rfl, ?_, hrest⟩
    rw [Document.Spells, ← numeralOf?_eq_some_iff, numeralOf?, hstart, Option.bind_some, hdigits,
      Option.bind_some, hn]

/-- **What is read as a value is a spelled document.** -/
theorem yields (length : Nat) : Yields length := by
  induction length with
  | zero =>
    intro stack cs e hlength _ h
    rw [List.length_eq_zero_iff.mp (Nat.le_zero.mp hlength)] at h
    cases h
  | succ length ih =>
    intro stack cs e hlength hstack h
    have hidle : Phase.value.IsIdle := trivial
    obtain ⟨before, c, cs, rfl, hbefore, hc, hcs⟩ := exists_of_completes_idle hidle h
    have hshort : cs.length ≤ length := by
      simp only [List.length_append, List.length_cons] at hlength
      omega
    have hstep : stepClosed ⟨stack, .value⟩ c = begin stack c := by
      simp only [stepClosed, hc, Bool.false_eq_true, if_false]
    rw [hstep] at hcs
    obtain ⟨d, body, rest, heq, hbody, hrest⟩ := ih.exists_of_begin hshort hstack hcs
    exact ⟨d, before, body, rest, by rw [heq], hbefore, hbody, hrest⟩

end State

open State

theorem reading_eq_iff {s : State} {d : Document} :
    s.reading = ⟨d, true⟩ ↔ s.settle.phase = .ended d := by
  unfold State.reading
  split
  · next d' hd' => simp [hd']
  · next d' hd' => simp [hd']
  · next hended _ =>
    constructor
    · intro h
      cases (Reading.mk.inj h).2
    · intro h
      exact absurd h (hended d)

/-- **A text is read cleanly to a document exactly if it is a text of that
document.** -/
theorem read_eq_iff_isTextOf {text : String} {d : Document} :
    read text = ⟨d, true⟩ ↔ d.IsTextOf text := by
  have hreading : read text = ⟨d, true⟩ ↔ Completes .start text.toList d := reading_eq_iff
  rw [hreading]
  constructor
  · intro h
    obtain ⟨d', before, body, after, heq, hbefore, hbody, hended⟩ :=
      yields _ [] _ d (Nat.le_refl _) (fun _ _ h => absurd h.symm (List.cons_ne_nil _ _)) h
    obtain ⟨hafter, rfl⟩ := completes_ended_iff.mp hended
    exact ⟨before, body, after, hbefore, hbody, hafter, heq⟩
  · rintro ⟨before, body, after, hbefore, hbody, hafter, heq⟩
    have hidle : Phase.value.IsIdle := trivial
    rw [heq]
    refine (completes_spaces hidle hbefore).mpr (accepts d [] body after d hbody ?_)
    exact completes_ended_iff.mpr ⟨hafter, rfl⟩

end Json

end LayerQuery
