import LayerQuery.Sql.Literal
/-!
# Patterns

A pattern looks for a text in a column: anywhere, at the start or at the
end. In its written form the open ends are percent signs, and the two
wildcard characters and the backslash are preceded by a backslash, so
that the text matches itself and nothing else.
-/

namespace LayerQuery

namespace Sql

/-- A text to look for, and on which sides something else may stand. -/
structure Pattern where
  openStart : Bool
  text : String
  openEnd : Bool
  deriving DecidableEq, Repr

namespace Pattern

/-- The text stands anywhere. -/
def anywhere (text : String) : Pattern := ⟨true, text, true⟩

/-- The text stands at the start. -/
def atStart (text : String) : Pattern := ⟨false, text, true⟩

/-- The text stands at the end. -/
def atEnd (text : String) : Pattern := ⟨true, text, false⟩

/-- One character of the text, standing for itself alone. -/
def escapeChar (c : Char) : List Char :=
  if c = '\\' ∨ c = '%' ∨ c = '_' then ['\\', c] else [c]

/-- The wildcard of an open side. -/
def wildcard (isOpen : Bool) : List Char :=
  if isOpen then ['%'] else []

/-- The characters of a pattern, before they are quoted. -/
def chars (p : Pattern) : List Char :=
  wildcard p.openStart ++ p.text.toList.flatMap escapeChar ++ wildcard p.openEnd

end Pattern

end Sql

end LayerQuery
