import LayerQuery.Compile.Error
import LayerQuery.Files
/-!
# Failures in full

The message about a failure is put together from the words for its
parts: the field that is missing, what the values lack, where the chain
breaks. What is read in the end is one of the sentences listed here, one
for each thing that can go wrong. They say what is printed without going
by the way that a message is put together (`CompileError.message_eq`,
`FileFault.message_eq`).
-/

namespace LayerQuery

/-- What is read of a tree that does not compile. -/
def CompileError.sentence : CompileError → String
  | .incomplete id .source => "Condition '" ++ id ++ "' is missing its source"
  | .incomplete id .attributeName => "Condition '" ++ id ++ "' is missing its attribute"
  | .incomplete id .operator => "Condition '" ++ id ++ "' is missing its condition"
  | .unsupported token => "Unsupported condition operator: " ++ token
  | .invalidValue name token .noValue =>
    "Invalid value for '" ++ name ++ "' (" ++ token ++ "): expected at least one value"
  | .invalidValue name token (.notSingle n) =>
    "Invalid value for '" ++ name ++ "' (" ++ token ++ "): expected exactly one value, got " ++
      Nat.repr n
  | .invalidValue name token .noPattern =>
    "Invalid value for '" ++ name ++ "' (" ++ token ++ "): expected a non-empty pattern"
  | .invalidValue name token (.notInteger s) =>
    "Invalid value for '" ++ name ++ "' (" ++ token ++ "): '" ++ s ++ "' is not an integer"
  | .invalidValue name token (.notNumber s) =>
    "Invalid value for '" ++ name ++ "' (" ++ token ++ "): '" ++ s ++ "' is not a number"
  | .invalidValue name token (.notBoolean s) =>
    "Invalid value for '" ++ name ++ "' (" ++ token ++ "): '" ++ s ++ "' is not a boolean"
  | .brokenChain id .noRoot => "Broken relation chain at '" ++ id ++ "': root fragment not found"
  | .brokenChain id .noFilter =>
    "Broken relation chain at '" ++ id ++ "': chain ends without a filter"
  | .brokenChain id .fork =>
    "Broken relation chain at '" ++ id ++ "': fragment has more than one child"
  | .brokenChain id .cycle => "Broken relation chain at '" ++ id ++ "': cycle in parent links"
  | .brokenChain id .typeMismatch =>
    "Broken relation chain at '" ++ id ++
      "': parent feature type does not match the parent fragment"

/-- A message and the word behind it make one literal of the sentence. -/
theorem append_word {front before word literal : String} (h : before ++ word = literal) :
    front ++ before ++ word = front ++ literal := by
  rw [String.append_assoc, h]

theorem append_word_append {front before word literal : String} (h : before ++ word = literal)
    (rest : String) : front ++ before ++ (word ++ rest) = front ++ literal ++ rest := by
  rw [← String.append_assoc, append_word h]

theorem append_quoted {front before literal : String} (h : before ++ "'" = literal)
    (text rest : String) :
    front ++ before ++ ("'" ++ text ++ rest) = front ++ literal ++ text ++ rest := by
  have hquoted : "'" ++ text ++ rest = "'" ++ (text ++ rest) := String.append_assoc
  rw [hquoted, append_word_append h, ← String.append_assoc]

theorem CompileError.message_eq (e : CompileError) : e.message = e.sentence := by
  cases e with
  | incomplete id field =>
    cases field with
    | source | attributeName | operator => exact append_word (by decide)
  | unsupported token => rfl
  | invalidValue name token problem =>
    cases problem with
    | noValue | noPattern => exact append_word (by decide)
    | notSingle n => exact append_word_append (by decide) (Nat.repr n)
    | notInteger s | notNumber s | notBoolean s => exact append_quoted (by decide) s _
  | brokenChain id problem =>
    cases problem with
    | noRoot | noFilter | fork | cycle | typeMismatch => exact append_word (by decide)

/-- What is read of a file that cannot be read as text. -/
def FileFault.sentence : FileFault → String
  | .notFound => "No such file or directory (os error 2)"
  | .notDirectory => "Not a directory (os error 20)"
  | .nameTooLong => "File name too long (os error 36)"
  | .noName => "file name contained an unexpected NUL byte"
  | .isDirectory => "Is a directory (os error 21)"
  | .notText => "stream did not contain valid UTF-8"
  | .other reason => reason

theorem FileFault.message_eq (f : FileFault) : f.message = f.sentence := by
  cases f <;> rfl

end LayerQuery
