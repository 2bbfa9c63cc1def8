/-!
# Why a tree does not compile

A compilation fails for one of four reasons: a condition is not filled
in, its operator is unknown, its values do not suit its operator and
type, or the chain of related feature types does not hold together. Each
reason carries what a message about it needs, and `CompileError.message`
has the words.
-/

namespace LayerQuery

/-- The fields without which a condition cannot be compiled. -/
inductive NeededField where
  | source
  | attributeName
  | operator
  deriving DecidableEq, Repr

/-- The name of a field in a message. -/
def NeededField.name : NeededField → String
  | .source => "source"
  | .attributeName => "attribute"
  | .operator => "condition"

/-- Why values do not suit. -/
inductive ValueProblem where
  /-- The operator compares with something, and there is nothing. -/
  | noValue
  /-- The operator compares with one value, and there are this many. -/
  | notSingle (count : Nat)
  /-- The operator looks for a text, and it is empty. -/
  | noPattern
  /-- The attribute holds integers and the text is none. -/
  | notInteger (text : String)
  /-- The attribute holds numbers and the text is none. -/
  | notNumber (text : String)
  /-- The attribute holds truth values and the text is none. -/
  | notBoolean (text : String)
  deriving DecidableEq, Repr

/-- A problem with values in words. -/
def ValueProblem.message : ValueProblem → String
  | .noValue => "expected at least one value"
  | .notSingle n => "expected exactly one value, got " ++ Nat.repr n
  | .noPattern => "expected a non-empty pattern"
  | .notInteger s => "'" ++ s ++ "' is not an integer"
  | .notNumber s => "'" ++ s ++ "' is not a number"
  | .notBoolean s => "'" ++ s ++ "' is not a boolean"

/-- Why fragments do not form a chain. -/
inductive ChainProblem where
  /-- No fragment has the id that the chain starts with. -/
  | noRoot
  /-- A fragment carries no filter and none follows it. -/
  | noFilter
  /-- More than one fragment follows. -/
  | fork
  /-- A fragment with this id came before. -/
  | cycle
  /-- A fragment names another parent type than its parent has. -/
  | typeMismatch
  deriving DecidableEq, Repr

/-- A problem with a chain in words. -/
def ChainProblem.message : ChainProblem → String
  | .noRoot => "root fragment not found"
  | .noFilter => "chain ends without a filter"
  | .fork => "fragment has more than one child"
  | .cycle => "cycle in parent links"
  | .typeMismatch => "parent feature type does not match the parent fragment"

/-- Why a tree does not compile. -/
inductive CompileError where
  /-- The condition with this id lacks a field. -/
  | incomplete (id : String) (field : NeededField)
  /-- No operator goes by this token. -/
  | unsupported (token : String)
  /-- The values for an attribute do not suit the operator. -/
  | invalidValue (attributeName token : String) (problem : ValueProblem)
  /-- The chain breaks at the fragment with this id. -/
  | brokenChain (id : String) (problem : ChainProblem)
  deriving DecidableEq, Repr

/-- A failure in words. -/
def CompileError.message : CompileError → String
  | .incomplete id field => "Condition '" ++ id ++ "' is missing its " ++ field.name
  | .unsupported token => "Unsupported condition operator: " ++ token
  | .invalidValue name token problem =>
    "Invalid value for '" ++ name ++ "' (" ++ token ++ "): " ++ problem.message
  | .brokenChain id problem =>
    "Broken relation chain at '" ++ id ++ "': " ++ problem.message

end LayerQuery
