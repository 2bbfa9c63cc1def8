import LayerQuery.Labels.Load
import LayerQuery.Proofs.Presentation
import Mathlib.Data.List.Induction
/-!
# The texts of labels

Labels are read by two codecs that look at a text in different order: one
takes each label as it comes, the other takes the whole object before it
looks at any. They report different faults, but what one reads the other
reads too. For both of them a document holds labels exactly if it is an
object all of whose names and labels are texts (`readMap_eq_ok_iff`,
`readConfig_eq_ok_iff`), and the labels are then its members put one
after the other, of which the last one of a name counts
(`label?_ofEntries`).

What is written is the text of such an object, in whatever order the
names stand (`isTextOf_toText`), so both readers get back the labels that
were written.
-/

namespace LayerQuery

open Json

namespace Labels

variable {ls ls' : Labels} {es : List (String × String)} {ms : List Member} {d : Document}
variable {name label text : String}

/-! ## Members one after the other -/

/-- Labels with entries put to them, the first one first. -/
def putAll (ls : Labels) (es : List (String × String)) : Labels :=
  es.foldl (fun ls e => ls.put e.1 e.2) ls

/-- The labels of entries. -/
def ofEntries (es : List (String × String)) : Labels :=
  putAll empty es

/-- The label that a name is given last. -/
def lastLabel? (es : List (String × String)) (name : String) : Option String :=
  es.reverse.lookup name

theorem ofEntries_concat (es : List (String × String)) (e : String × String) :
    ofEntries (es ++ [e]) = (ofEntries es).put e.1 e.2 :=
  List.foldl_concat ..

/-- **The last label of a name is its label.** -/
theorem label?_ofEntries (es : List (String × String)) (name : String) :
    (ofEntries es).label? name = lastLabel? es name := by
  induction es using List.reverseRecOn with
  | nil => rfl
  | append_singleton es e ih =>
    rw [ofEntries_concat, label?_put, ih, lastLabel?, lastLabel?, List.reverse_concat, lookup_entry]

/-! ## Names in order -/

/-- No name has two labels. -/
def IsMap (ls : Labels) : Prop :=
  (ls.entries.map Prod.fst).Nodup

instance (ls : Labels) : Decidable ls.IsMap :=
  inferInstanceAs (Decidable (List.Nodup _))

/-- The names stand in order. -/
def IsSorted (es : List (String × String)) : Prop :=
  (es.map Prod.fst).Pairwise (· < ·)

theorem eq_or_mem_of_mem_putEntry {n : String}
    (h : n ∈ (putEntry name label es).map Prod.fst) : n = name ∨ n ∈ es.map Prod.fst := by
  induction es with
  | nil => exact .inl (List.mem_singleton.mp h)
  | cons e es ih =>
    rw [putEntry] at h
    split at h
    · next heq =>
      rw [List.map_cons, List.mem_cons] at h
      exact h.imp_right (List.mem_cons_of_mem _)
    · split at h
      · exact List.mem_cons.mp h
      · rw [List.map_cons, List.mem_cons] at h
        rcases h with rfl | h
        · exact .inr List.mem_cons_self
        · exact (ih h).imp_right (List.mem_cons_of_mem _)

theorem isSorted_putEntry (h : IsSorted es) : IsSorted (putEntry name label es) := by
  induction es with
  | nil => exact List.pairwise_singleton _ _
  | cons e es ih =>
    obtain ⟨hfirst, hrest⟩ := List.pairwise_cons.mp h
    rw [putEntry]
    split
    · next heq => exact List.pairwise_cons.mpr ⟨heq ▸ hfirst, hrest⟩
    · next hne =>
      split
      · next hlt =>
        refine List.pairwise_cons.mpr ⟨List.forall_mem_cons.mpr ⟨hlt, fun n hn => ?_⟩, h⟩
        exact String.lt_trans hlt (hfirst n hn)
      · next hlt =>
        -- the name goes behind the first entry
        refine List.pairwise_cons.mpr ⟨fun n hn => ?_, ih hrest⟩
        rcases eq_or_mem_of_mem_putEntry hn with rfl | hn
        · exact Std.lt_of_le_of_ne hlt (Ne.symm hne)
        · exact hfirst n hn

theorem isSorted_ofEntries (es : List (String × String)) : IsSorted (ofEntries es).entries := by
  induction es using List.reverseRecOn with
  | nil => exact List.Pairwise.nil
  | append_singleton es e ih =>
    rw [ofEntries_concat]
    exact isSorted_putEntry ih

/-- What is put together has one label for each name. -/
theorem isMap_ofEntries (es : List (String × String)) : (ofEntries es).IsMap :=
  List.Pairwise.imp (fun hlt => Std.ne_of_lt hlt) (isSorted_ofEntries es)

/-! ## Documents of labels -/

theorem read_text_eq_ok_iff : Codec.text.read d = .ok label ↔ d = .ofText label := by
  constructor
  · intro h
    cases d with
    | string s =>
      cases s with
      | none => cases h
      | some s =>
        obtain rfl := Except.ok.inj h
        rfl
    | _ => cases h
  · rintro rfl
    rfl

/-- The members of an object with these names and labels. -/
def membersOf (es : List (String × String)) : List Member :=
  es.map fun e => (some e.1, .ofText e.2)

/-- The document of an object with these names and labels. -/
def document (es : List (String × String)) : Document :=
  .object (membersOf es) true

/-- **What members put**: the labels of an object of labels, and nothing
else. -/
theorem putMembers_eq_ok_iff :
    putMembers ls ms = .ok ls' ↔ ∃ es, ms = membersOf es ∧ ls' = putAll ls es := by
  constructor
  · intro h
    induction ms generalizing ls with
    | nil => exact ⟨[], rfl, (Except.ok.inj h).symm⟩
    | cons m ms ih =>
      obtain ⟨- | name, d⟩ := m
      · cases h
      · obtain ⟨label, hlabel, h⟩ := eq_ok_of_bind_eq_ok h
        obtain ⟨es, rfl, rfl⟩ := ih h
        exact ⟨(name, label) :: es, by rw [read_text_eq_ok_iff.mp hlabel]; rfl, rfl⟩
  · rintro ⟨es, rfl, rfl⟩
    induction es generalizing ls with
    | nil => rfl
    | cons e es ih => exact ih

theorem isSound_document (es : List (String × String)) : (document es).isSound = true := by
  rw [document, Document.isSound, Document.membersSound_eq_all, membersOf, Bool.and_true,
    List.all_map, List.all_eq_true]
  exact fun e _ => rfl

theorem readMap_eq_ok_iff : readMap d = .ok ls ↔ ∃ es, d = document es ∧ ls = ofEntries es := by
  constructor
  · intro h
    cases d with
    | object members closed =>
      obtain ⟨ls', hput, h⟩ := eq_ok_of_bind_eq_ok h
      obtain ⟨es, rfl, rfl⟩ := putMembers_eq_ok_iff.mp hput
      cases closed with
      | false => cases h
      | true => exact ⟨es, rfl, (Except.ok.inj h).symm⟩
    | _ => cases h
  · rintro ⟨es, rfl, rfl⟩
    rw [document, readMap, putMembers_eq_ok_iff.mpr ⟨es, rfl, rfl⟩]
    rfl

theorem readConfig_eq_ok_iff :
    readConfig d = .ok ls ↔ ∃ es, d = document es ∧ ls = ofEntries es := by
  constructor
  · intro h
    cases d with
    | object members closed =>
      rw [readConfig] at h
      split at h
      · next hsound =>
        obtain ⟨es, rfl, rfl⟩ := putMembers_eq_ok_iff.mp h
        obtain ⟨-, rfl⟩ := Bool.and_eq_true_iff.mp hsound
        exact ⟨es, rfl, rfl⟩
      · cases h
    | _ => cases h
  · rintro ⟨es, rfl, rfl⟩
    have hsound : (Document.membersSound (membersOf es) && true) = true := isSound_document es
    rw [document, readConfig, if_pos hsound]
    exact putMembers_eq_ok_iff.mpr ⟨es, rfl, rfl⟩

/-! ## Texts of labels -/

theorem within_eq_ofText_iff {depth : Nat} : d.within depth = .ofText label ↔ d = .ofText label := by
  cases depth <;> cases d <;> simp [Document.within, Document.ofText]

theorem membersWithin_eq_membersOf_iff {depth : Nat} :
    Document.membersWithin depth ms = membersOf es ↔ ms = membersOf es := by
  induction ms generalizing es with
  | nil => rfl
  | cons m ms ih =>
    cases es with
    | nil => simp [Document.membersWithin, membersOf]
    | cons e es =>
      have hrest := @ih es
      rw [membersOf] at hrest
      simp [Document.membersWithin, membersOf, hrest, Prod.ext_iff, within_eq_ofText_iff]

/-- No label lies so deep that it would be cut off. -/
theorem within_eq_document_iff {depth : Nat} :
    d.within (depth + 1) = document es ↔ d = document es := by
  cases d with
  | object members closed =>
    simp [Document.within, document, membersWithin_eq_membersOf_iff]
  | _ => simp [Document.within, document]

/-- A codec that reads what objects of labels say reads the texts of such
objects, and nothing else. -/
theorem ofText_eq_ok_iff {codec : Codec Labels}
    (hread : ∀ d ls, codec.read d = .ok ls ↔ ∃ es, d = document es ∧ ls = ofEntries es) :
    codec.ofText text = .ok ls ↔ ∃ es, (document es).IsTextOf text ∧ ls = ofEntries es := by
  have hlimit : depthLimit = 126 + 1 := rfl
  simp only [Codec.ofText_eq_ok_iff, hread, hlimit, within_eq_document_iff, read_eq_iff_isTextOf]
  constructor
  · rintro ⟨_, htext, es, rfl, rfl⟩
    exact ⟨es, htext, rfl⟩
  · rintro ⟨es, htext, rfl⟩
    exact ⟨_, htext, es, rfl, rfl⟩

/-- From a file that holds a text the labels of the text are loaded. -/
theorem load_eq_ok_iff {files : Files} {path : String} (hfile : files path = .ok text) :
    load files path = .ok ls ↔ mapCodec.ofText text = .ok ls := by
  have hload : load files path = (mapCodec.ofText text).mapError (.unparsable path) := by
    rw [load, hfile]
  rw [hload]
  exact ⟨eq_ok_of_mapError_eq_ok, fun h => by rw [h]; rfl⟩

/-- What is written is an object of the labels. -/
theorem isTextOf_toText (ls : Labels) : (document ls.entries).IsTextOf (configCodec.toText ls) := by
  have hwrite : configCodec.write ls = document ls.entries :=
    congrArg (Document.object · true) (List.map_map ..)
  rw [Codec.toText, hwrite]
  exact Document.isTextOf_text (isSound_document ls.entries)

/-- Where no name has two labels, the last one is the only one. -/
theorem IsMap.lastLabel?_eq (h : ls.IsMap) (name : String) :
    lastLabel? ls.entries name = ls.label? name :=
  lookup_perm (List.reverse_perm _).symm (List.nodup_iff_count_le_one.mp h name)

/-- **The two readers of labels agree** on every text that a file holds.
Both read it or neither does, and they do exactly if it is the text of an
object of labels; then every name has the label that it is given last.
Labels that were written come back by either reader, name by name. -/
theorem ofText_configCodec_iff_load {files : Files} {path : String}
    (hfile : files path = .ok text) :
    (∀ ls, configCodec.ofText text = .ok ls ↔ load files path = .ok ls) ∧
      ((∃ ls, load files path = .ok ls) ↔ ∃ es, (document es).IsTextOf text) ∧
      (∀ ls, load files path = .ok ls → ls.IsMap ∧
        ∃ es, (document es).IsTextOf text ∧ ∀ name, ls.label? name = lastLabel? es name) ∧
      ∀ written : Labels, written.IsMap → text = configCodec.toText written →
        ∃ ls, configCodec.ofText text = .ok ls ∧ load files path = .ok ls ∧
          ∀ name, ls.label? name = written.label? name := by
  have hmap : ∀ ls, load files path = .ok ls ↔
      ∃ es, (document es).IsTextOf text ∧ ls = ofEntries es :=
    fun ls => (load_eq_ok_iff hfile).trans (ofText_eq_ok_iff fun _ _ => readMap_eq_ok_iff)
  have hconfig : ∀ ls, configCodec.ofText text = .ok ls ↔
      ∃ es, (document es).IsTextOf text ∧ ls = ofEntries es :=
    fun ls => ofText_eq_ok_iff fun _ _ => readConfig_eq_ok_iff
  refine ⟨fun ls => (hconfig ls).trans (hmap ls).symm, ?_, ?_, ?_⟩
  · simp only [hmap]
    exact ⟨fun ⟨_, es, htext, _⟩ => ⟨es, htext⟩, fun ⟨es, htext⟩ => ⟨_, es, htext, rfl⟩⟩
  · intro ls hls
    obtain ⟨es, htext, rfl⟩ := (hmap ls).mp hls
    exact ⟨isMap_ofEntries es, es, htext, label?_ofEntries es⟩
  · rintro written hwritten rfl
    have htext := isTextOf_toText written
    refine ⟨ofEntries written.entries, (hconfig _).mpr ⟨_, htext, rfl⟩,
      (hmap _).mpr ⟨_, htext, rfl⟩, fun name => ?_⟩
    rw [label?_ofEntries, hwritten.lastLabel?_eq]

-- where both fail they may differ: one stops at the number, the other at the missing brace
example : mapCodec.ofText "\x7b\"part\":1" ≠ configCodec.ofText "\x7b\"part\":1" := by
  decide +kernel

/-- A text in which a name comes twice, once with an escape in it. -/
def partsText : String :=
  " \x7b\"p\\u0061rt\":\"A\",\"bolt\":\"Bolts\", \"part\" : \"Parts\"\x7d"

/-- What it says. -/
def partsLabels : Labels :=
  ⟨[("bolt", "Bolts"), ("part", "Parts")]⟩

/-- Files that all hold one text. -/
def alikeFiles (text : String) : Files :=
  fun _ => .ok text

theorem partsText_iff_load :
    load (alikeFiles partsText) defaultPath = .ok partsLabels ∧
      configCodec.ofText partsText = .ok partsLabels ∧
      ∃ ls, configCodec.ofText (configCodec.toText partsLabels) = .ok ls ∧
        load (alikeFiles (configCodec.toText partsLabels)) defaultPath = .ok ls ∧
        ls.label? "part" = some "Parts" := by
  have hload : load (alikeFiles partsText) defaultPath = .ok partsLabels := by decide +kernel
  have hmap : partsLabels.IsMap := by decide
  have hfile (text : String) : alikeFiles text defaultPath = .ok text := rfl
  obtain ⟨hsame, -⟩ := ofText_configCodec_iff_load (hfile partsText)
  obtain ⟨-, -, -, hback⟩ := ofText_configCodec_iff_load (hfile (configCodec.toText partsLabels))
  obtain ⟨ls, hconfig, hls, hlabels⟩ := hback partsLabels hmap rfl
  exact ⟨hload, (hsame _).mpr hload, ls, hconfig, hls, hlabels "part"⟩

end Labels

end LayerQuery
