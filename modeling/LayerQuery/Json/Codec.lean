import LayerQuery.Json.Fault
import LayerQuery.Json.Printer
import LayerQuery.Json.Reader
/-!
# Codecs

A `Codec` takes values of a type from documents and puts them into
documents. Codecs of simple types are given here, with the ways to build
further ones: lists, values that may be unset, and choices between
names. Records are in the module after this one.

A codec walks its document from the first part to the last and returns
the first fault it meets; since a text that stops being JSON leaves a
document that is cut short at its end, that fault is also the first one
in the text.
-/

namespace LayerQuery

namespace Json

/-- How a value is taken from a document and put into one. -/
structure Codec (α : Type) where
  read : Document → Except Fault α
  write : α → Document

/-- How many lists and objects may lie inside one another where values are taken from them. -/
def depthLimit : Nat := 127

namespace Codec

variable {α : Type}

/-- A value from a text, nothing but spaces following it. -/
def ofText (c : Codec α) (text : String) : Except Fault α := do
  let reading := Json.read text
  let a ← c.read (reading.document.within depthLimit)
  if reading.clean then .ok a else .error .malformed

/-- The text of a value. -/
def toText (c : Codec α) (a : α) : String :=
  (c.write a).text

/-! ## Simple types -/

/-- Texts. -/
def text [Rounding] : Codec String where
  read
    | .string (some s) => .ok s
    | d => .error (d.mismatch "a string")
  write := Document.ofText

/-- Reads an integer literal that fits a signed word. -/
def readInt64 [Rounding] : Document → Except Fault Int64
  | .number n =>
    match integerOfNumeral? n with
    | some i => if inWord i then .ok (Int64.ofInt i) else .error (.data (.outOfRange i))
    | none => .error ((Document.number n).mismatch "i64")
  | d => .error (d.mismatch "i64")

/-- Integers of a signed word of 64 bits. -/
def int64 [Rounding] : Codec Int64 where
  read := readInt64
  write n := Document.ofInt n.toInt

/-! ## Lists and unset values -/

/-- Reads all items, the first one first. -/
def readItems (c : Codec α) : List Document → Except Fault (List α)
  | [] => .ok []
  | d :: ds => do
    let a ← c.read d
    let as ← readItems c ds
    .ok (a :: as)

/-- Lists of values. -/
def list [Rounding] (c : Codec α) : Codec (List α) where
  read
    | .array items closed => do
      let as ← c.readItems items
      if closed then .ok as else .error .malformed
    | d => .error (d.mismatch "a sequence")
  write as := .list (as.map c.write)

/-- Values that may be unset, which is written as null. -/
def option (c : Codec α) : Codec (Option α) where
  read
    | .null => .ok none
    | d => (c.read d).map some
  write
    | none => .null
    | some a => c.write a

/-! ## Choices -/

/-- The value of a name among those that there are. -/
def choose (names : List (String × α)) (name : String) : Except Fault α :=
  match names.lookup name with
  | some a => .ok a
  | none => .error (.data (.unknownVariant name (names.map Prod.fst)))

/-- The name of a value among those that there are. -/
def nameOf [DecidableEq α] (names : List (String × α)) (a : α) : String :=
  ((names.find? fun n => n.2 = a).map Prod.fst).getD ""

/-- Reads a choice: its name as a string, or an object with null under that name alone. -/
def readChoice [Rounding] (names : List (String × α)) : Document → Except Fault α
  | .string (some name) => choose names name
  | .object ((some name, d) :: ms) closed => do
    let a ← choose names name
    match d with
    | .null => if ms.isEmpty && closed then .ok a else .error .malformed
    | d => .error (d.mismatch "unit")
  | _ => .error .malformed

/-- Choices between named values. -/
def choice [Rounding] [DecidableEq α] (names : List (String × α)) : Codec α where
  read := readChoice names
  write a := Document.ofText (nameOf names a)

end Codec

end Json

end LayerQuery
