import LayerQuery.Sql.Pattern
/-!
# Predicates

What a test compiles to: a comparison, a membership, a match or a test
for null, of one column. `Predicate.chars` writes it in the dialect of
the query backend.
-/

namespace LayerQuery

namespace Sql

/-- How a column is compared with one operand. -/
inductive Comparison where
  | equal
  | unequal
  | greater
  | less
  | atLeast
  | atMost
  deriving DecidableEq, Repr

/-- The sign of a comparison. -/
def Comparison.sign : Comparison → String
  | .equal => "="
  | .unequal => "<>"
  | .greater => ">"
  | .less => "<"
  | .atLeast => ">="
  | .atMost => "<="

/-- A test of one column. -/
inductive Predicate where
  /-- A comparison with one operand. -/
  | compare (column : String) (comparison : Comparison) (operand : Operand)
  /-- Membership in a list of operands, or its denial. -/
  | member (column : String) (negated : Bool) (operands : List Operand)
  /-- A match of a pattern, or its denial. -/
  | like (column : String) (negated : Bool) (pattern : Pattern)
  /-- Absence of a value, or its denial. -/
  | isNull (column : String) (negated : Bool)
  deriving DecidableEq, Repr

namespace Predicate

/-- The column that is tested. -/
def column : Predicate → String
  | .compare c _ _ => c
  | .member c _ _ => c
  | .like c _ _ => c
  | .isNull c _ => c

/-- What follows the column. -/
def testChars : Predicate → List Char
  | .compare _ comparison operand => comparison.sign.toList ++ ' ' :: operand.chars
  | .member _ negated operands =>
    (if negated then "NOT IN (" else "IN (").toList ++
      [',', ' '].intercalate (operands.map Operand.chars) ++ [')']
  | .like _ negated pattern =>
    (if negated then "NOT LIKE " else "LIKE ").toList ++ literalChars pattern.chars ++
      " ESCAPE ".toList ++ literalChars ['\\']
  | .isNull _ negated => (if negated then "IS NOT NULL" else "IS NULL").toList

/-- The characters of a predicate. -/
def chars (p : Predicate) : List Char :=
  identifierChars p.column.toList ++ ' ' :: p.testChars

end Predicate

end Sql

end LayerQuery
