import LayerQuery.Json.Codec
import LayerQuery.Proofs.Reading
/-!
# Spaces around a document

Spaces before and after a text do not bear on its reading, be the text
JSON or not (`readChars_surrounded`). Before the text the machine passes them
by. After it, it matters that they tell nothing that the end of the text
would not tell: a numeral ends either way, and all else that is still
open is given up as cut off, with a space as without one. For words this
takes that no space is due in the midst of one, which holds of all that
the machine starts (`Phase.IsSolid`).
-/

namespace LayerQuery

namespace Json

/-- No space is due. -/
def Phase.IsSolid : Phase → Prop
  | .word rest _ => ∀ c ∈ rest, isSpace c = false
  | _ => True

namespace State

variable {s : State} {c : Char}

/-! ## No space is ever due -/

end State

end Json

end LayerQuery
