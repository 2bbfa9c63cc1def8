import LayerQuery.Json.Document
/-!
# Writing JSON

A document is written without spaces. Strings are written with as few
escapes as the format allows: quotes, backslashes and control characters
alone, five of the latter by a letter and the rest by their number; all
else stands for itself. What a document leaves open stays open on paper,
so that a document that was cut short is written as a text that is cut
short at the same place.
-/

namespace LayerQuery

namespace Json

/-- A digit of base sixteen, in small letters. -/
def hexChar (n : Nat) : Char :=
  if n < 10 then Char.ofNat (48 + n) else Char.ofNat (87 + n)

/-- One character as it stands between quotes. -/
def escapeChar (c : Char) : List Char :=
  match c with
  | '"' => ['\\', '"']
  | '\\' => ['\\', '\\']
  | '\x08' => ['\\', 'b']
  | '\t' => ['\\', 't']
  | '\n' => ['\\', 'n']
  | '\x0c' => ['\\', 'f']
  | '\r' => ['\\', 'r']
  | c =>
    if c.toNat < 0x20 then
      ['\\', 'u', '0', '0', hexChar (c.toNat / 16), hexChar (c.toNat % 16)]
    else [c]

/-- A text between quotes. -/
def quote (s : String) : List Char :=
  '"' :: (s.toList.flatMap escapeChar ++ ['"'])

/-- A string; one that is no text is written as half of a surrogate pair. -/
def quoteOrHalf : Option String → List Char
  | some s => quote s
  | none => "\"\\ud800\"".toList

namespace Document

mutual

/-- The written form of a document. -/
def chars : Document → List Char
  | .null => "null".toList
  | .boolean b => if b then "true".toList else "false".toList
  | .number n => n.text.toList
  | .string s => quoteOrHalf s
  | .array items closed =>
    '[' :: ([','].intercalate (itemChars items) ++ if closed then [']'] else [])
  | .object members closed =>
    '\x7b' :: ([','].intercalate (memberChars members) ++ if closed then ['\x7d'] else [])
  | .broken => []

/-- The written forms of the items of a list. -/
def itemChars : List Document → List (List Char)
  | [] => []
  | d :: ds => chars d :: itemChars ds

/-- The written forms of the members of an object. -/
def memberChars : List (Option String × Document) → List (List Char)
  | [] => []
  | (name, d) :: ms => (quoteOrHalf name ++ ':' :: chars d) :: memberChars ms

end

/-- The text of a document. -/
def text (d : Document) : String :=
  String.ofList d.chars

theorem itemChars_eq_map (ds : List Document) : itemChars ds = ds.map chars := by
  induction ds with
  | nil => simp [itemChars]
  | cons d ds ih => simp [itemChars, ih]

theorem memberChars_eq_map (ms : List Member) :
    memberChars ms = ms.map fun m => quoteOrHalf m.1 ++ ':' :: m.2.chars := by
  induction ms with
  | nil => simp [memberChars]
  | cons m ms ih => simp [memberChars, ih]

end Document

end Json

end LayerQuery
