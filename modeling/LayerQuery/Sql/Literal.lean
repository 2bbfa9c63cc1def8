import LayerQuery.Number.Spelling
/-!
# Identifiers and literals

User text enters a query in two places only: as a quoted identifier,
where double quotes are doubled, and as a string literal. A literal is
escaped with backslashes where it has to be, and then it is marked as
such by an `E` in front; a text without anything to escape stands
between plain quotes.
-/

namespace LayerQuery

namespace Sql

/-- One character of an identifier. -/
def identifierChar (c : Char) : List Char :=
  if c = '"' then ['"', '"'] else [c]

/-- A name between double quotes. -/
def identifierChars (name : List Char) : List Char :=
  '"' :: (name.flatMap identifierChar ++ ['"'])

/-- One character of a string literal. -/
def literalChar (c : Char) : List Char :=
  match c with
  | '\\' => ['\\', '\\']
  | '"' => ['\\', '"']
  | '\'' => ['\\', '\'']
  | '\x00' => ['\\', '0']
  | '\x08' => ['\\', 'b']
  | '\t' => ['\\', 't']
  | '\x1a' => ['\\', 'z']
  | '\n' => ['\\', 'n']
  | '\r' => ['\\', 'r']
  | c => [c]

/-- A text as a string literal, marked by an `E` where it holds an escape. -/
def literalChars (text : List Char) : List Char :=
  let body := text.flatMap literalChar
  if '\\' ∈ body then 'E' :: '\'' :: (body ++ ['\'']) else '\'' :: (body ++ ['\''])

/-- What a column is compared with. -/
inductive Operand where
  | text (value : String)
  | integer (value : Int)
  | real (value : Binary64)
  | boolean (value : Bool)
  deriving DecidableEq, Repr

/-- The characters of an operand. -/
def Operand.chars : Operand → List Char
  | .text s => literalChars s.toList
  | .integer n => (integerText n).toList
  | .real x => x.queryText.toList
  | .boolean b => if b then "TRUE".toList else "FALSE".toList

end Sql

end LayerQuery
