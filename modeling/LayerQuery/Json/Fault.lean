import LayerQuery.Json.Document
import LayerQuery.Number.Spelling
import LayerQuery.Text.Quoted
/-!
# What can be wrong with a document

Either the text is no JSON where it is looked at (`malformed`), or it
says something that the wanted type cannot take up. The second kind is a
`Problem`, with the words for it in `Problem.message`.
-/

namespace LayerQuery

namespace Json

/-- What a document turned out to hold in the place of something else. -/
inductive Found where
  | null
  | boolean (value : Bool)
  | integer (value : Int)
  | real (value : Binary64)
  | text (value : String)
  | sequence
  | mapping
  deriving DecidableEq

/-- Why a well-formed document is not a value of the wanted type. -/
inductive Problem where
  /-- A field that must be given is not. -/
  | missingField (name : String)
  /-- A field is given twice. -/
  | duplicateField (name : String)
  /-- A choice that is none of those that there are. -/
  | unknownVariant (found : String) (known : List String)
  /-- A value of one kind in the place of another. -/
  | invalidType (found : Found) (expected : String)
  /-- An integer beyond a signed word of 64 bits. -/
  | outOfRange (value : Int)
  /-- A list that ends before all fields of a record are given. -/
  | invalidLength (length : Nat) (record : String) (fields : Nat)
  /-- A value that is none of the kinds that a type unites. -/
  | noAlternative (union : String)
  deriving DecidableEq

/-- What keeps a text from being read. -/
inductive Fault where
  /-- The text is no JSON where it is looked at, or is nested too deeply there. -/
  | malformed
  /-- The text is JSON but does not describe a value of the wanted type. -/
  | data (problem : Problem)
  deriving DecidableEq

/-- What was found, in words. -/
def Found.inWords : Found → String
  | .null => "null"
  | .boolean b => if b then "boolean `true`" else "boolean `false`"
  | .integer n => "integer `" ++ integerText n ++ "`"
  | .real x => "floating point `" ++ x.documentText ++ "`"
  | .text s => "string " ++ Text.quoted s
  | .sequence => "sequence"
  | .mapping => "map"

/-- A name between backticks. -/
def ticked (s : String) : String :=
  "`" ++ s ++ "`"

/-- The known choices, in words: one, one of two, or one of a list. -/
def knownText : List String → String
  | [] => "there are no variants"
  | [a] => "expected " ++ ticked a
  | [a, b] => "expected " ++ ticked a ++ " or " ++ ticked b
  | names => "expected one of " ++ ", ".intercalate (names.map ticked)

/-- A problem in words. -/
def Problem.message : Problem → String
  | .missingField name => "missing field " ++ ticked name
  | .duplicateField name => "duplicate field " ++ ticked name
  | .unknownVariant found known =>
    "unknown variant " ++ ticked found ++ ", " ++ knownText known
  | .invalidType found expected => "invalid type: " ++ found.inWords ++ ", expected " ++ expected
  | .outOfRange n => "invalid value: integer " ++ ticked (integerText n) ++ ", expected i64"
  | .invalidLength length record fields =>
    "invalid length " ++ Nat.repr length ++ ", expected struct " ++ record ++ " with " ++
      Nat.repr fields ++ (if fields = 1 then " element" else " elements")
  | .noAlternative union => "data did not match any variant of untagged enum " ++ union

/-- What a document holds, judged by its first part: lists and objects are not looked into, while a
scalar has to be sound. -/
def Document.found? [Rounding] : Document → Option Found
  | .null => some .null
  | .boolean b => some (.boolean b)
  | .number n =>
    match numberOfNumeral? n with
    | some (.integer i) => some (.integer i)
    | some (.real x) => some (.real x)
    | none => none
  | .string s => s.map .text
  | .array _ _ => some .sequence
  | .object _ _ => some .mapping
  | .broken => none

/-- The fault of a document in the place of something else. -/
def Document.mismatch [Rounding] (d : Document) (expected : String) : Fault :=
  match d.found? with
  | some found => .data (.invalidType found expected)
  | none => .malformed

end Json

end LayerQuery
