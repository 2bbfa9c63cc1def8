/-!
# Files

The program reads files and changes none, so the world is to it a
function from paths to texts, or to reasons why there is no text.
-/

namespace LayerQuery

/-- Why a file cannot be read as text. -/
inductive FileFault where
  /-- There is nothing at the path. -/
  | notFound
  /-- The path leads through something that is no directory. -/
  | notDirectory
  /-- A name in the path is longer than names can be. -/
  | nameTooLong
  /-- The path has the character U+0000 in it, which no name has. -/
  | noName
  /-- There is a directory at the path. -/
  | isDirectory
  /-- The bytes of the file are not the UTF-8 form of a text. -/
  | notText
  /-- Any other reason, in the words of the system. -/
  | other (reason : String)
  deriving DecidableEq, Repr

/-- A reason in the words of the system. -/
def FileFault.message : FileFault → String
  | .notFound => "No such file or directory (os error 2)"
  | .notDirectory => "Not a directory (os error 20)"
  | .nameTooLong => "File name too long (os error 36)"
  | .noName => "file name contained an unexpected NUL byte"
  | .isDirectory => "Is a directory (os error 21)"
  | .notText => "stream did not contain valid UTF-8"
  | .other reason => reason

/-- There is nothing at the path, whichever way that shows. -/
def FileFault.isAbsence (f : FileFault) : Bool :=
  f == .notFound || f == .notDirectory || f == .nameTooLong || f == .noName

/-- What is at each path. -/
abbrev Files := String → Except FileFault String

end LayerQuery
