import LayerQuery.Text.Cluster
/-!
# Typed lines

A line comes as it was typed, with the backspaces (U+0008) in it. A
backspace takes back the last cluster that is still there. How much that
is has been noted in bytes when the cluster was typed, and the note is a
single byte: of a cluster of 256 bytes or more, as many bytes are taken
back as its size leaves when divided by 256. What is left may then end
inside a character. No text ends there, and the line cannot be delivered.
A line without backspaces always can, just as it was typed
(`typed?_of_not_mem`).
-/

namespace LayerQuery

namespace Text

/-- The character that takes back what was typed before it. -/
def backspace : Char := '\x08'

/-- What comes after a number of bytes of UTF-8, unless the bytes end inside a character or are more
than there are. -/
def dropBytes? : Nat → List Char → Option (List Char)
  | 0, cs => some cs
  | _ + 1, [] => none
  | n + 1, c :: cs => if c.utf8Size ≤ n + 1 then dropBytes? (n + 1 - c.utf8Size) cs else none

/-- What is there of a line: its characters, the last one first, and the sizes of its clusters, the
last one first. -/
structure Typed where
  chars : List Char
  sizes : List UInt8
  deriving DecidableEq, Repr

namespace Typed

/-- Before the first cluster. -/
def empty : Typed := ⟨[], []⟩

/-- One more cluster is there. -/
def put (t : Typed) (cluster : List Char) : Typed :=
  ⟨cluster.reverse ++ t.chars, UInt8.ofNat (String.ofList cluster).utf8ByteSize :: t.sizes⟩

/-- The last cluster is taken back, if there is one. -/
def takeBack? (t : Typed) : Option Typed :=
  match t.sizes with
  | [] => some t
  | size :: sizes => (dropBytes? size.toNat t.chars).map fun chars => ⟨chars, sizes⟩

/-- One more cluster is typed. -/
def type? (t : Typed) (cluster : List Char) : Option Typed :=
  if cluster = [backspace] then t.takeBack? else some (t.put cluster)

end Typed

/-- What is there of a line once it is typed. -/
def typedChars? (cs : List Char) : Option (List Char) :=
  ((clusters cs).foldlM Typed.type? .empty).map fun t => t.chars.reverse

/-- The line that was meant, if it can be delivered: backspaces have taken back what was typed
before them, and are gone themselves. -/
def typed? (line : String) : Option String :=
  (typedChars? line.toList).map String.ofList

/-! ## Lines without backspaces -/

theorem exists_foldlM_type? (t : Typed) {css : List (List Char)} (h : [backspace] ∉ css) :
    ∃ t', css.foldlM Typed.type? t = some t' ∧ t'.chars = css.flatten.reverse ++ t.chars := by
  induction css generalizing t with
  | nil => exact ⟨t, rfl, rfl⟩
  | cons cluster css ih =>
    rw [List.mem_cons, not_or] at h
    have htype : t.type? cluster = some (t.put cluster) := if_neg (Ne.symm h.1)
    obtain ⟨t', ht', hchars⟩ := ih (t.put cluster) h.2
    refine ⟨t', ?_, ?_⟩
    · rw [List.foldlM_cons, htype]
      exact ht'
    · simp [hchars, Typed.put]

theorem typedChars?_of_not_mem {cs : List Char} (h : backspace ∉ cs) :
    typedChars? cs = some cs := by
  have hclusters : [backspace] ∉ clusters cs := fun hmem => h <| by
    rw [← flatten_clusters cs]
    exact List.mem_flatten.2 ⟨_, hmem, List.mem_singleton.2 rfl⟩
  obtain ⟨t, ht, hchars⟩ := exists_foldlM_type? .empty hclusters
  rw [typedChars?, ht, Option.map_some, hchars, flatten_clusters]
  simp [Typed.empty]

/-- **A line without backspaces is delivered as it was typed.** -/
theorem typed?_of_not_mem {line : String} (h : backspace ∉ line.toList) :
    typed? line = some line := by
  rw [typed?, typedChars?_of_not_mem h, Option.map_some, String.ofList_toList]

end Text

end LayerQuery
