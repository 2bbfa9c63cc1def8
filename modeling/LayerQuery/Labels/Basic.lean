import LayerQuery.Json.Codec
/-!
# Labels

A label file maps names of feature types to the labels they are shown
with. It is an object of strings, in which a name may come more than
once; the last label is the one that counts. Two codecs read it. They
accept the same texts, but one looks at a label as soon as it comes,
while the other takes the whole object first, so that on a text with
several faults they may report different ones.
-/

namespace LayerQuery

open Json

/-- Labels by name, in the order of the names. -/
structure Labels where
  entries : List (String × String)
  deriving DecidableEq, Repr

namespace Labels

/-- No labels. -/
def empty : Labels := ⟨[]⟩

/-- Entries with one name given a label, the others kept. -/
def putEntry (name label : String) : List (String × String) → List (String × String)
  | [] => [(name, label)]
  | (n, l) :: rest =>
    if name = n then (name, label) :: rest
    else if name < n then (name, label) :: (n, l) :: rest
    else (n, l) :: putEntry name label rest

/-- The labels with one name given a label. -/
def put (ls : Labels) (name label : String) : Labels :=
  ⟨putEntry name label ls.entries⟩

/-- The label of a name, if it has one. -/
def label? (ls : Labels) (name : String) : Option String :=
  ls.entries.lookup name

/-- The first entry decides if it has the name. -/
theorem lookup_entry (name label other : String) (es : List (String × String)) :
    ((name, label) :: es).lookup other = if other = name then some label else es.lookup other := by
  rw [List.lookup_cons]
  by_cases h : other = name
  · simp [h]
  · simp [h, beq_eq_false_iff_ne.mpr h]

/-- The lookup in entries to which one was put. -/
theorem lookup_putEntry (name label other : String) (es : List (String × String)) :
    (putEntry name label es).lookup other =
      if other = name then some label else es.lookup other := by
  induction es with
  | nil => rw [putEntry, lookup_entry]
  | cons e es ih =>
    obtain ⟨n, l⟩ := e
    rw [putEntry]
    split
    · next h =>
      subst h
      by_cases h : other = name <;> simp [lookup_entry, h]
    · split
      · rw [lookup_entry]
      · rw [lookup_entry, lookup_entry, ih]
        by_cases h : other = n
        · subst h
          have : other ≠ name := fun h => by simp_all
          simp [this]
        · simp [h]

/-- What was put is found under its name, and everything else as before. -/
theorem label?_put (ls : Labels) (name label other : String) :
    (ls.put name label).label? other = if other = name then some label else ls.label? other :=
  lookup_putEntry ..

/-! ## As JSON -/

variable [Rounding]

/-- Puts the members of an object, the first one first. -/
def putMembers : Labels → List Member → Except Fault Labels
  | ls, [] => .ok ls
  | _, (none, _) :: _ => .error .malformed
  | ls, (some name, d) :: ms => do
    let label ← Codec.text.read d
    putMembers (ls.put name label) ms

/-- The document of labels. -/
def write (ls : Labels) : Document :=
  .record (ls.entries.map fun e => (e.1, .ofText e.2))

/-- Reads labels one by one. -/
def readMap : Document → Except Fault Labels
  | .object members closed => do
    let ls ← putMembers empty members
    if closed then .ok ls else .error .malformed
  | d => .error (d.mismatch "a map")

/-- Reads labels after the whole object was taken. -/
def readConfig : Document → Except Fault Labels
  | .object members closed =>
    if Document.membersSound members && closed then putMembers empty members
    else .error .malformed
  | d => .error (d.mismatch "struct FormLabelConfig")

/-- Labels as they are kept in a label file. -/
def mapCodec : Codec Labels := ⟨readMap, write⟩

/-- Labels as a configuration. -/
def configCodec : Codec Labels := ⟨readConfig, write⟩

end Labels

end LayerQuery
