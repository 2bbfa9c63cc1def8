import LayerQuery.Text.Blank
/-!
# Operators

The operators that the query backend has, with the tokens they go by.
Tokens are compared as keywords: outer blanks and the case of ASCII
letters do not matter.
-/

namespace LayerQuery

namespace Sql

/-- An operator of a test. -/
inductive Operator where
  | equal
  | unequal
  | greater
  | less
  | atLeast
  | atMost
  | contains
  | notContains
  | startsWith
  | endsWith
  | oneOf
  | noneOf
  | isNull
  | isNotNull
  | isTrue
  | isFalse
  deriving DecidableEq, Repr

namespace Operator

/-- All operators. -/
def all : List Operator :=
  [.equal, .unequal, .greater, .less, .atLeast, .atMost, .contains, .notContains, .startsWith,
    .endsWith, .oneOf, .noneOf, .isNull, .isNotNull, .isTrue, .isFalse]

/-- The tokens of an operator. -/
def tokens : Operator → List String
  | .equal => ["=", "eq"]
  | .unequal => ["<>", "!=", "ne"]
  | .greater => [">", "gt"]
  | .less => ["<", "lt"]
  | .atLeast => [">=", "gte"]
  | .atMost => ["<=", "lte"]
  | .contains => ["like"]
  | .notContains => ["not_like"]
  | .startsWith => ["starts_with"]
  | .endsWith => ["ends_with"]
  | .oneOf => ["in"]
  | .noneOf => ["not_in"]
  | .isNull => ["null"]
  | .isNotNull => ["not_null"]
  | .isTrue => ["true"]
  | .isFalse => ["false"]

/-- The operator that goes by a token, if there is one. -/
def ofToken? (token : String) : Option Operator :=
  all.find? fun o => o.tokens.contains (Text.keyword token)

end Operator

end Sql

end LayerQuery
