import LayerQuery.Json.Document
/-!
# Reading JSON, one character at a time

The reader is a machine with a stack of open lists and objects and a
phase, the phase saying what may come next. `step` consumes exactly one
character and the whole reading is a fold of `step` over the text, so
what a text reads to is settled by its parts in order: the machine after
`s ++ t` is the machine after `t`, started where `s` left it.

A character that cannot come next takes the machine to the phase
`broken`, where it stays. At the end of the text the stack is folded up
into the document read so far (`fold`); whatever is open then is marked
as not closed.
-/

namespace LayerQuery

namespace Json

/-- The four characters that may stand between the parts of a document. -/
def isSpace (c : Char) : Bool :=
  c == ' ' || c == '\t' || c == '\n' || c == '\r'

/-! ## Numerals -/

/-- What part of a numeral was read last. -/
inductive Lexeme.Stage where
  /-- A minus sign. -/
  | minus
  /-- A zero that starts the whole part and so ends it. -/
  | zero
  /-- A digit after that zero, with which no numeral goes on. -/
  | zeroDigit
  /-- Digits of the whole part. -/
  | whole
  /-- The point. -/
  | point
  /-- Digits after the point. -/
  | fraction
  /-- The letter that announces the exponent. -/
  | mark
  /-- The sign of the exponent. -/
  | sign
  /-- Digits of the exponent. -/
  | exponent
  deriving DecidableEq, Repr

/-- A numeral that is being read. The digits after the point are held the last one first. -/
structure Lexeme where
  stage : Lexeme.Stage
  negative : Bool
  whole : Nat
  fraction : List Digit
  exponentNegative : Bool
  exponent : Nat
  deriving DecidableEq, Repr

namespace Lexeme

/-- The lexeme that a first character opens. -/
def start? (c : Char) : Option Lexeme :=
  if c = '-' then some ⟨.minus, true, 0, [], false, 0⟩
  else (Digit.ofChar? c).map fun d =>
    ⟨if d = Digit.zero then .zero else .whole, false, d.val, [], false, 0⟩

/-- The lexeme with one more digit. -/
def addDigit (l : Lexeme) (d : Digit) : Lexeme :=
  match l.stage with
  | .minus => { l with stage := if d = Digit.zero then .zero else .whole, whole := d.val }
  | .zero | .zeroDigit => { l with stage := .zeroDigit }
  | .whole => { l with whole := l.whole * 10 + d.val }
  | .point | .fraction => { l with stage := .fraction, fraction := d :: l.fraction }
  | .mark | .sign | .exponent =>
    { l with stage := .exponent, exponent := l.exponent * 10 + d.val }

/-- The lexeme with one more character, where that character may follow. -/
def add? (l : Lexeme) (c : Char) : Option Lexeme :=
  match Digit.ofChar? c with
  | some d => some (l.addDigit d)
  | none =>
    match l.stage with
    | .zero | .whole =>
      if c = '.' then some { l with stage := .point }
      else if c = 'e' ∨ c = 'E' then some { l with stage := .mark }
      else none
    | .fraction => if c = 'e' ∨ c = 'E' then some { l with stage := .mark } else none
    | .mark =>
      if c = '+' then some { l with stage := .sign }
      else if c = '-' then some { l with stage := .sign, exponentNegative := true }
      else none
    | _ => none

/-- The numeral that has been read, where the lexeme may end. -/
def numeral? (l : Lexeme) : Option Numeral :=
  match l.stage with
  | .zero | .whole | .fraction => some ⟨l.negative, l.whole, l.fraction.reverse, none⟩
  | .exponent =>
    some ⟨l.negative, l.whole, l.fraction.reverse,
      some (if l.exponentNegative then -(l.exponent : Int) else l.exponent)⟩
  | _ => none

end Lexeme

/-! ## Strings -/

/-- Where in an escape a string is. -/
inductive Escape where
  /-- In none. -/
  | none
  /-- After the backslash. -/
  | slash
  /-- Among the hexadecimal digits; so many are still to come, and these came so far. -/
  | hex (left : Nat) (unit : Nat)
  deriving DecidableEq, Repr

/-- A string that is being read: its characters, the last one first, the first half of a surrogate
pair that waits for the second, and whether every half so far found the other. -/
structure Chars where
  read : List Char
  pending : Option Nat
  paired : Bool
  escape : Escape
  deriving DecidableEq, Repr

namespace Chars

/-- Right after the opening quote. -/
def start : Chars := ⟨[], none, true, .none⟩

/-- A character stands for itself or an escape for it; a half that waits stays alone. -/
def put (s : Chars) (c : Char) : Chars :=
  { s with read := c :: s.read, pending := none, paired := s.paired && s.pending.isNone
           escape := .none }

/-- A code unit written by its number is added to what came before: a second half completes a
first half, a first half waits, and any other unit is a character. -/
def putUnit (s : Chars) (unit : Nat) : Chars :=
  if 0xDC00 ≤ unit ∧ unit < 0xE000 then
    match s.pending with
    | some high =>
      { s with read := Char.ofNat (0x10000 + (high - 0xD800) * 0x400 + (unit - 0xDC00)) :: s.read
               pending := none, escape := .none }
    | none => { s with paired := false, escape := .none }
  else if 0xD800 ≤ unit ∧ unit < 0xDC00 then
    { s with pending := some unit, paired := s.paired && s.pending.isNone, escape := .none }
  else s.put (Char.ofNat unit)

/-- The character that a letter after a backslash stands for. -/
def escaped? (c : Char) : Option Char :=
  match c with
  | '"' => some '"'
  | '\\' => some '\\'
  | '/' => some '/'
  | 'b' => some '\x08'
  | 'f' => some '\x0c'
  | 'n' => some '\n'
  | 'r' => some '\r'
  | 't' => some '\t'
  | _ => none

/-- The value of a hexadecimal digit. -/
def hexDigit? (c : Char) : Option Nat :=
  let n := c.toNat
  if 48 ≤ n ∧ n ≤ 57 then some (n - 48)
  else if 97 ≤ n ∧ n ≤ 102 then some (n - 87)
  else if 65 ≤ n ∧ n ≤ 70 then some (n - 55)
  else none

/-- The string with one more character, which is not the closing quote; a control character and an
unknown escape cannot follow. -/
def add? (s : Chars) (c : Char) : Option Chars :=
  match s.escape with
  | .none =>
    if c = '\\' then some { s with escape := .slash }
    else if c.toNat < 0x20 then none
    else some (s.put c)
  | .slash =>
    if c = 'u' then some { s with escape := .hex 3 0 }
    else (escaped? c).map s.put
  | .hex left unit =>
    (hexDigit? c).map fun d =>
      match left with
      | 0 => s.putUnit (unit * 16 + d)
      | left + 1 => { s with escape := .hex left (unit * 16 + d) }

/-- What the string says once it is closed. -/
def text (s : Chars) : Option String :=
  if s.paired && s.pending.isNone then some (String.ofList s.read.reverse) else none

end Chars

/-! ## The machine -/

/-- A list or an object that is open. Items and members are held the last one first. -/
inductive Frame where
  /-- A list. -/
  | array (items : List Document)
  /-- An object, between two members. -/
  | object (members : List Member)
  /-- An object in a member, whose name was read. -/
  | member (members : List Member) (name : Option String)

/-- What may come next. -/
inductive Phase where
  /-- A value. -/
  | value
  /-- A value, or the end of the list. -/
  | firstItem
  /-- A name, or the end of the object. -/
  | firstName
  /-- A name. -/
  | name
  /-- The colon after a name. -/
  | colon
  /-- These characters, which complete a word. -/
  | word (rest : List Char) (meaning : Document)
  /-- The rest of a numeral, or what follows it. -/
  | number (lexeme : Lexeme)
  /-- The rest of a string. -/
  | string (chars : Chars)
  /-- A comma or the end of what is open. -/
  | after
  /-- Nothing but spaces: the document is complete. -/
  | ended (document : Document)
  /-- Anything: there was more than spaces after the document. -/
  | trailing (document : Document)
  /-- Nothing that would mend the text. -/
  | broken

/-- The machine: what is open, the innermost first, and what may come next. -/
structure State where
  stack : List Frame
  phase : Phase

namespace State

/-- Before the first character. -/
def start : State := ⟨[], .value⟩

/-- The machine once it is broken. -/
def halt (s : State) : State := { s with phase := .broken }

/-- The machine after a complete value. -/
def deliver (stack : List Frame) (d : Document) : State :=
  match stack with
  | [] => ⟨[], .ended d⟩
  | .array items :: rest => ⟨.array (d :: items) :: rest, .after⟩
  | .member members name :: rest => ⟨.object ((name, d) :: members) :: rest, .after⟩
  | .object members :: rest => ⟨.object members :: rest, .broken⟩

/-- The machine after a complete string, which is a name where an object is between members. -/
def deliverString (stack : List Frame) (text : Option String) : State :=
  match stack with
  | .object members :: rest => ⟨.member members text :: rest, .colon⟩
  | _ => deliver stack (.string text)

/-- The machine after the first character of a value. -/
def begin (stack : List Frame) (c : Char) : State :=
  if c = '\x7b' then ⟨.object [] :: stack, .firstName⟩
  else if c = '[' then ⟨.array [] :: stack, .firstItem⟩
  else if c = '"' then ⟨stack, .string .start⟩
  else if c = 'n' then ⟨stack, .word ['u', 'l', 'l'] .null⟩
  else if c = 't' then ⟨stack, .word ['r', 'u', 'e'] (.boolean true)⟩
  else if c = 'f' then ⟨stack, .word ['a', 'l', 's', 'e'] (.boolean false)⟩
  else match Lexeme.start? c with
    | some l => ⟨stack, .number l⟩
    | none => ⟨stack, .broken⟩

/-- The machine after a comma or a closing bracket. -/
def next (stack : List Frame) (c : Char) : State :=
  match stack with
  | .array items :: rest =>
    if c = ',' then ⟨stack, .value⟩
    else if c = ']' then deliver rest (.array items.reverse true)
    else ⟨stack, .broken⟩
  | .object members :: rest =>
    if c = ',' then ⟨stack, .name⟩
    else if c = '\x7d' then deliver rest (.object members.reverse true)
    else ⟨stack, .broken⟩
  | _ => ⟨stack, .broken⟩

/-- One character where no numeral is open. -/
def stepClosed (s : State) (c : Char) : State :=
  match s.phase with
  | .value => if isSpace c then s else begin s.stack c
  | .firstItem =>
    if isSpace c then s else if c = ']' then next s.stack c else begin s.stack c
  | .firstName =>
    if isSpace c then s
    else if c = '"' then ⟨s.stack, .string .start⟩
    else if c = '\x7d' then next s.stack c
    else s.halt
  | .name => if isSpace c then s else if c = '"' then ⟨s.stack, .string .start⟩ else s.halt
  | .colon => if isSpace c then s else if c = ':' then ⟨s.stack, .value⟩ else s.halt
  | .word rest meaning =>
    match rest with
    | [] => s.halt
    | [w] => if c = w then deliver s.stack meaning else s.halt
    | w :: ws => if c = w then ⟨s.stack, .word ws meaning⟩ else s.halt
  | .string chars =>
    if c = '"' ∧ chars.escape = .none then deliverString s.stack chars.text
    else match chars.add? c with
      | some chars => ⟨s.stack, .string chars⟩
      | none => s.halt
  | .after => if isSpace c then s else next s.stack c
  | .ended d => if isSpace c then s else ⟨s.stack, .trailing d⟩
  | .number _ => s.halt
  | .trailing _ => s
  | .broken => s

/-- The machine with an open numeral completed. -/
def settle (s : State) : State :=
  match s.phase with
  | .number l =>
    match l.numeral? with
    | some n => deliver s.stack (.number n)
    | none => s.halt
  | _ => s

/-- One character. -/
def step (s : State) (c : Char) : State :=
  match s.phase with
  | .number l =>
    match l.add? c with
    | some l => ⟨s.stack, .number l⟩
    | none => stepClosed s.settle c
  | _ => stepClosed s c

/-- What is open, folded up into the document that the innermost value belongs to. -/
def fold : List Frame → Option Document → Document
  | [], inner => inner.getD .broken
  | .array items :: rest, inner =>
    fold rest (some (.array (items.reverse ++ inner.toList) false))
  | .object members :: rest, _ => fold rest (some (.object members.reverse false))
  | .member members name :: rest, inner =>
    fold rest (some (.object (members.reverse ++ [(name, inner.getD .broken)]) false))

end State

/-- What a text says: the document it holds as far as it is JSON, and whether nothing but spaces
follows that document. -/
structure Reading where
  document : Document
  clean : Bool

/-- What the machine has read when the text ends. -/
def State.reading (s : State) : Reading :=
  match s.settle.phase with
  | .ended d => ⟨d, true⟩
  | .trailing d => ⟨d, false⟩
  | _ => ⟨State.fold s.settle.stack none, false⟩

/-- The machine after a list of characters. -/
def scan (s : State) (cs : List Char) : State :=
  cs.foldl State.step s

/-- The reading of a list of characters. -/
def readChars (cs : List Char) : Reading :=
  (scan .start cs).reading

/-- The reading of a text. -/
def read (text : String) : Reading :=
  readChars text.toList

@[simp] theorem scan_nil (s : State) : scan s [] = s := rfl

@[simp] theorem scan_cons (s : State) (c : Char) (cs : List Char) :
    scan s (c :: cs) = scan (s.step c) cs := rfl

end Json

end LayerQuery
