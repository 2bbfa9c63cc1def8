import LayerQuery.Proofs.RoundTrip
/-!
# Presentations of a record

The same record can be written in many ways: with its members in any
order, with members that are no fields, with fields left out or spelled
out, or as a list. `Restated` has these changes one by one, for a record
whose fields and stand-ins are listed in a `RecordForm`. What a record is
read from is given by name or by index (`Fields.read_eq_ok_iff`), so a
change does not matter if it gives each field what it had before, or the
stand-in for nothing and nothing for the stand-in (`Agrees`).

A change can also be made inside one field of a record or one item of a
list. `AtField` and `AtItem` say where, and `Codec.Carries` what becomes
of the value that is read: changes of parts are carried over to wholes.
-/

namespace LayerQuery

namespace Json

/-- The fields of a record in order: their names, and the document that may stand for a field that
is not given, if there is one. -/
abbrev RecordForm := List (String × Option Document)

namespace Document

variable {form : RecordForm} {ms before after : List Member} {name other : String} {d e : Document}

/-! ## Lookup in objects -/

theorem lookup_insert_of_ne (h : other ≠ name) :
    (before ++ (some name, d) :: after).lookup (some other) =
      (before ++ after).lookup (some other) := by
  induction before with
  | nil => exact lookup_cons_of_ne h d after
  | cons m before ih =>
    rw [List.cons_append, List.cons_append, List.lookup_cons, List.lookup_cons, ih]

theorem lookup_eq_none_of_not_mem (h : some name ∉ ms.map Prod.fst) :
    ms.lookup (some name) = none := by
  rw [List.lookup_eq_none_iff]
  intro m hm
  rw [bne_iff_ne]
  rintro heq
  exact h (heq ▸ List.mem_map_of_mem hm)

theorem lookup_insert_self (h : some name ∉ (before ++ after).map Prod.fst) :
    (before ++ (some name, d) :: after).lookup (some name) = some d := by
  rw [List.map_append, List.mem_append, not_or] at h
  rw [List.lookup_append, lookup_eq_none_of_not_mem h.1, List.lookup_cons_self, Option.none_or]

theorem count_insert :
    ((before ++ (some name, d) :: after).map Prod.fst).count (some other) =
      ((before ++ after).map Prod.fst).count (some other) + if other = name then 1 else 0 := by
  simp only [List.map_append, List.map_cons, List.count_append, List.count_cons]
  by_cases heq : other = name
  · subst heq
    simp only [beq_self_eq_true, if_true]
    omega
  · have hne : ¬ (some name == some other) = true := by simpa using Ne.symm heq
    rw [if_neg heq, if_neg hne]
    omega

/-! ## Restating a record -/

/-- A member that says nothing beside the other members: its name is that of no field, or it is the
stand-in for a field that is not given otherwise. -/
def SaysNothing (form : RecordForm) (name : String) (d : Document) (others : List Member) : Prop :=
  name ∉ form.map Prod.fst ∨ (name, some d) ∈ form ∧ some name ∉ others.map Prod.fst

theorem SaysNothing.not_mem {others : List Member} (h : SaysNothing form name d others)
    (hname : name ∈ form.map Prod.fst) : some name ∉ others.map Prod.fst := by
  rcases h with h | ⟨-, h⟩
  · exact absurd hname h
  · exact h

/-- The changes of a record that leave what it says, one by one. -/
inductive Restated (form : RecordForm) : Document → Document → Prop
  /-- The members come in another order. -/
  | permuted {ms ms' : List Member} (h : ms.Perm ms') :
    Restated form (.object ms true) (.object ms' true)
  /-- A member that says nothing is put anywhere. -/
  | inserted {before after : List Member} {name : String} {d : Document}
    (h : SaysNothing form name d (before ++ after)) :
    Restated form (.object (before ++ after) true)
      (.object (before ++ (some name, d) :: after) true)
  /-- Or taken away. -/
  | removed {before after : List Member} {name : String} {d : Document}
    (h : SaysNothing form name d (before ++ after)) :
    Restated form (.object (before ++ (some name, d) :: after) true)
      (.object (before ++ after) true)
  /-- The object becomes the list of all its fields, with stand-ins for those that are not given. -/
  | listed {ms : List Member} {items : List Document}
    (h : List.Forall₂ (fun f item => (ms.lookup (some f.1)).or f.2 = some item) form items) :
    Restated form (.object ms true) (.list items)
  /-- A list that is too short to give a field gets the stand-in for it. -/
  | appended {items : List Document} {name : String} {d : Document}
    (h : form[items.length]? = some (name, some d)) :
    Restated form (.list items) (.list (items ++ [d]))
  /-- Or loses it again. -/
  | cut {items : List Document} {name : String} {d : Document}
    (h : form[items.length]? = some (name, some d)) :
    Restated form (.list (items ++ [d])) (.list items)

/-- Two ways to give documents are the same for a field, or one gives nothing and the other the
stand-in. -/
def Agrees (form : RecordForm) (given given' : String → Nat → Option Document) : Prop :=
  ∀ index name standIn, form[index]? = some (name, standIn) →
    given' name index = given name index ∨
      ∃ e, standIn = some e ∧
        (given name index = none ∧ given' name index = some e ∨
          given name index = some e ∧ given' name index = none)

theorem Agrees.symm {given given' : String → Nat → Option Document} (h : Agrees form given given') :
    Agrees form given' given := by
  intro index name standIn hfield
  rcases h index name standIn hfield with h | ⟨e, he, ⟨hnone, hsome⟩ | ⟨hsome, hnone⟩⟩
  · exact .inl h.symm
  · exact .inr ⟨e, he, .inr ⟨hsome, hnone⟩⟩
  · exact .inr ⟨e, he, .inl ⟨hnone, hsome⟩⟩

/-- What a document gives. -/
abbrev gives (d : Document) (name : String) (index : Nat) : Option Document :=
  d.given name index

/-- A member that says nothing makes no difference. -/
theorem agrees_insert (hform : (form.map Prod.fst).Nodup)
    (h : SaysNothing form name d (before ++ after)) :
    Agrees form (gives (.object (before ++ after) true))
      (gives (.object (before ++ (some name, d) :: after) true)) := by
  intro index other standIn hfield
  have hmem := List.mem_of_getElem? hfield
  by_cases hname : other = name
  · subst hname
    rcases h with h | ⟨hstands, habsent⟩
    · exact absurd (List.mem_map.mpr ⟨_, hmem, rfl⟩) h
    · have hsame := List.inj_on_of_nodup_map hform hmem hstands rfl
      exact .inr ⟨d, (Prod.mk.inj hsame).2,
        .inl ⟨lookup_eq_none_of_not_mem habsent, lookup_insert_self habsent⟩⟩
  · exact .inl (lookup_insert_of_ne hname)

theorem isRecord_insert_iff {names : List String}
    (h : name ∈ names → some name ∉ (before ++ after).map Prod.fst) :
    (Document.object (before ++ (some name, d) :: after) true).IsRecord names ↔
      (Document.object (before ++ after) true).IsRecord names := by
  have hcount : ∀ field ∈ names,
      (((before ++ (some name, d) :: after).map Prod.fst).count (some field) ≤ 1 ↔
        ((before ++ after).map Prod.fst).count (some field) ≤ 1) := by
    intro field hfield
    rw [count_insert]
    by_cases heq : field = name
    · subst heq
      rw [List.count_eq_zero.mpr (h hfield), if_pos rfl]
      omega
    · rw [if_neg heq, Nat.add_zero]
  have hnames : (∀ m ∈ before ++ (some name, d) :: after, m.1.isSome = true) ↔
      ∀ m ∈ before ++ after, m.1.isSome = true := by
    simp only [List.forall_mem_append, List.forall_mem_cons, Option.isSome_some, true_and]
  exact and_congr_right fun _ => and_congr hnames (forall₂_congr hcount)

/-- The name of a field comes in no other member. -/
theorem IsRecord.not_mem {names : List String}
    (h : (Document.object (before ++ (some name, d) :: after) true).IsRecord names)
    (hname : name ∈ names) : some name ∉ (before ++ after).map Prod.fst := by
  have hcount := h.2.2 name hname
  rw [count_insert, if_pos rfl] at hcount
  rw [← List.count_eq_zero]
  omega

theorem agrees_append {items : List Document} (h : form[items.length]? = some (name, some d)) :
    Agrees form (gives (.list items)) (gives (.list (items ++ [d]))) := by
  intro index other standIn hfield
  change (items ++ [d])[index]? = items[index]? ∨ ∃ e, standIn = some e ∧
    (items[index]? = none ∧ (items ++ [d])[index]? = some e ∨
      items[index]? = some e ∧ (items ++ [d])[index]? = none)
  rcases Nat.lt_trichotomy index items.length with hlt | rfl | hgt
  · exact .inl (List.getElem?_append_left hlt)
  · obtain ⟨-, rfl⟩ := Prod.mk.inj (Option.some.inj (h.symm.trans hfield))
    exact .inr ⟨d, rfl, .inl ⟨List.getElem?_eq_none (Nat.le_refl _), by simp⟩⟩
  · have hshort : (items ++ [d]).length ≤ index := by
      rw [List.length_append, List.length_singleton]
      exact hgt
    exact .inl (by rw [List.getElem?_eq_none hshort, List.getElem?_eq_none (Nat.le_of_lt hgt)])

/-- In the list of all fields each has its own value or its stand-in. -/
theorem agrees_listed {items : List Document}
    (h : List.Forall₂ (fun f item => (ms.lookup (some f.1)).or f.2 = some item) form items) :
    Agrees form (gives (.object ms true)) (gives (.list items)) := by
  intro index name standIn hfield
  change items[index]? = ms.lookup (some name) ∨ ∃ e, standIn = some e ∧
    (ms.lookup (some name) = none ∧ items[index]? = some e ∨
      ms.lookup (some name) = some e ∧ items[index]? = none)
  obtain ⟨hlt, hform⟩ := List.getElem?_eq_some_iff.mp hfield
  have hlt' : index < items.length := h.length_eq ▸ hlt
  have hitem := List.Forall₂.get h hlt hlt'
  rw [List.get_eq_getElem, List.get_eq_getElem, hform] at hitem
  rw [List.getElem?_eq_getElem hlt']
  cases hlookup : ms.lookup (some name) with
  | some e =>
    rw [hlookup] at hitem
    exact .inl hitem.symm
  | none =>
    rw [hlookup] at hitem
    exact .inr ⟨items[index], hitem, .inl ⟨rfl, rfl⟩⟩

theorem isRecord_of_length_le {names : List String} {items : List Document}
    (h : items.length ≤ names.length) : (Document.list items).IsRecord names :=
  ⟨rfl, h⟩

/-- **A restated record is a record and says the same.** -/
theorem Restated.agrees (hform : (form.map Prod.fst).Nodup) {d d' : Document}
    (h : Restated form d d') (hrecord : d.IsRecord (form.map Prod.fst)) :
    d'.IsRecord (form.map Prod.fst) ∧ Agrees form d.gives d'.gives := by
  have hlonger {items : List Document} {f : String × Option Document} {d : Document}
      (h : form[items.length]? = some f) :
      (items ++ [d]).length ≤ (form.map Prod.fst).length := by
    obtain ⟨hlt, -⟩ := List.getElem?_eq_some_iff.mp h
    rw [List.length_append, List.length_singleton, List.length_map]
    exact hlt
  cases h with
  | @permuted ms ms' h =>
    obtain ⟨-, hnames, honce⟩ := hrecord
    refine ⟨⟨rfl, fun m hm => hnames m (h.mem_iff.mpr hm), fun name hname => ?_⟩, ?_⟩
    · rw [← (h.map Prod.fst).count_eq]
      exact honce name hname
    · intro index name standIn hfield
      have hname : name ∈ form.map Prod.fst :=
        List.mem_map.mpr ⟨_, List.mem_of_getElem? hfield, rfl⟩
      exact .inl (lookup_perm h (honce name hname))
  | inserted h => exact ⟨(isRecord_insert_iff h.not_mem).mpr hrecord, agrees_insert hform h⟩
  | removed h => exact ⟨(isRecord_insert_iff h.not_mem).mp hrecord, (agrees_insert hform h).symm⟩
  | @listed ms items h =>
    refine ⟨isRecord_of_length_le ?_, agrees_listed h⟩
    rw [List.length_map]
    exact Nat.le_of_eq h.length_eq.symm
  | appended h => exact ⟨isRecord_of_length_le (hlonger h), agrees_append h⟩
  | @cut items name d h =>
    refine ⟨isRecord_of_length_le ?_, (agrees_append h).symm⟩
    have hlong : (items ++ [d]).length ≤ (form.map Prod.fst).length := hrecord.2
    rw [List.length_append] at hlong
    omega

/-! ## Changes inside -/

end Document

/-- A change of the item at an index. -/
inductive AtIndex {α : Type} (i : Nat) (R : α → α → Prop) : List α → List α → Prop
  | mk (before after : List α) {a a' : α} (hi : before.length = i) (h : R a a') :
    AtIndex i R (before ++ a :: after) (before ++ a' :: after)

theorem AtIndex.eq {α : Type} {i : Nat} {as as' : List α} (h : AtIndex i Eq as as') : as' = as := by
  obtain ⟨before, after, -, rfl⟩ := h
  rfl

/-- What holds member by member of one list and another can be carried
over a change in the first. -/
theorem AtIndex.exists_forall₂ {α β : Type} {i : Nat} {R : α → α → Prop} {P : β → β → Prop}
    {Q : α → β → Prop} {as as' : List α} {bs : List β} (h : AtIndex i R as as')
    (hbs : List.Forall₂ Q as bs)
    (hcarry : ∀ a a' b, R a a' → Q a b → ∃ b', Q a' b' ∧ P b b') :
    ∃ bs', List.Forall₂ Q as' bs' ∧ AtIndex i P bs bs' := by
  obtain ⟨before, after, hi, hR⟩ := h
  next a a' =>
  induction before generalizing bs i with
  | nil =>
    obtain ⟨b, rest, hb, hrest, rfl⟩ := List.forall₂_cons_left_iff.mp hbs
    obtain ⟨b', hb', hP⟩ := hcarry a a' b hR hb
    exact ⟨b' :: rest, .cons hb' hrest, .mk [] rest hi hP⟩
  | cons x before ih =>
    obtain ⟨y, ys, hy, hys, rfl⟩ := List.forall₂_cons_left_iff.mp hbs
    obtain ⟨ys', hys', hat⟩ := ih rfl hys
    refine ⟨y :: ys', .cons hy hys', ?_⟩
    obtain ⟨front, rest, hfront, hP⟩ := hat
    exact .mk (y :: front) rest ((congrArg Nat.succ hfront).trans hi) hP

namespace Document

/-- A change inside the item of a list at an index. -/
inductive AtItem (i : Nat) (R : Document → Document → Prop) : Document → Document → Prop
  | mk {items items' : List Document} (h : AtIndex i R items items') :
    AtItem i R (.list items) (.list items')

/-- A change inside the field of a name, which may be a member of an object or an item of a list. -/
inductive AtField (form : RecordForm) (name : String) (R : Document → Document → Prop) :
    Document → Document → Prop
  | member {before after : List Member} {d d' : Document} (h : R d d') :
    AtField form name R (.object (before ++ (some name, d) :: after) true)
      (.object (before ++ (some name, d') :: after) true)
  | item {i : Nat} {items items' : List Document} (hname : (form.map Prod.fst)[i]? = some name)
    (h : AtIndex i R items items') : AtField form name R (.list items) (.list items')

theorem getElem?_of_atIndex {i : Nat} {R : Document → Document → Prop}
    {items items' : List Document} (h : AtIndex i R items items') :
    items'.length = items.length ∧
      (∀ index, index ≠ i → items'[index]? = items[index]?) ∧
      ∃ d d', R d d' ∧ items[i]? = some d ∧ items'[i]? = some d' := by
  obtain ⟨before, after, rfl, h⟩ := h
  refine ⟨by simp, fun index hne => ?_, _, _, h, by simp, by simp⟩
  rw [List.getElem?_append, List.getElem?_append]
  split
  · rfl
  · have hpos : index - before.length ≠ 0 := by omega
    rw [List.getElem?_cons, if_neg hpos, List.getElem?_cons, if_neg hpos]

namespace AtField

variable {R : Document → Document → Prop} {d d' : Document} {index : Nat}

theorem isRecord (h : AtField form name R d d') (hrecord : d.IsRecord (form.map Prod.fst)) :
    d'.IsRecord (form.map Prod.fst) := by
  cases h with
  | @member before after e e' h =>
    obtain ⟨-, hnames, honce⟩ := hrecord
    have hsame : (before ++ (some name, e') :: after).map Prod.fst =
        (before ++ (some name, e) :: after).map Prod.fst := by
      rw [List.map_append, List.map_append, List.map_cons, List.map_cons]
    refine ⟨rfl, ?_, fun field hfield => hsame ▸ honce field hfield⟩
    simp only [List.forall_mem_append, List.forall_mem_cons] at hnames ⊢
    exact hnames
  | item _ h =>
    refine isRecord_of_length_le ?_
    rw [(getElem?_of_atIndex h).1]
    exact hrecord.2

/-- The other fields are given as before. -/
theorem given_of_ne (h : AtField form name R d d')
    (hother : (form.map Prod.fst)[index]? = some other) (hne : other ≠ name) :
    d'.given other index = d.given other index := by
  cases h with
  | member h => exact (lookup_insert_of_ne hne).trans (lookup_insert_of_ne hne).symm
  | item hi h =>
    refine (getElem?_of_atIndex h).2.1 index ?_
    rintro rfl
    exact hne (Option.some.inj (hother.symm.trans hi))

/-- **The field itself is given, before and after the change.** -/
theorem exists_given (h : AtField form name R d d') (hform : (form.map Prod.fst).Nodup)
    (hrecord : d.IsRecord (form.map Prod.fst)) (hindex : (form.map Prod.fst)[index]? = some name) :
    ∃ e e', R e e' ∧ d.given name index = some e ∧ d'.given name index = some e' := by
  cases h with
  | @member before after e e' h =>
    have hfresh := hrecord.not_mem (List.mem_of_getElem? hindex)
    exact ⟨e, e', h, lookup_insert_self hfresh, lookup_insert_self hfresh⟩
  | item hi h =>
    obtain ⟨hlt, hget⟩ := List.getElem?_eq_some_iff.mp hindex
    obtain ⟨hlt', hget'⟩ := List.getElem?_eq_some_iff.mp hi
    obtain rfl := hform.getElem_inj_iff.mp (hget.trans hget'.symm)
    exact (getElem?_of_atIndex h).2.2

end AtField

end Document

theorem Document.within_null (depth : Nat) : within depth .null = .null := by
  cases depth <;> rfl

theorem Document.within_ofText (depth : Nat) (s : String) :
    within depth (.ofText s) = .ofText s := by
  cases depth <;> rfl

theorem Document.within_list (items : List Document) (depth : Nat) :
    (Document.list items).within (depth + 1) = .array (items.map (·.within depth)) true := by
  rw [Document.list, Document.within, Document.allWithin_eq_map]

/-! ## What becomes of the value

A change of documents is carried over to the values that are read from
them, down to a depth. -/

/-- **After the change a value is still read**, which the relation tells
from what was read before. -/
def Codec.Carries {α : Type} (c : Codec α) (depth : Nat) (R : Document → Document → Prop)
    (P : α → α → Prop) : Prop :=
  ∀ d d' a, R d d' → c.read (d.within depth) = .ok a →
    ∃ a', c.read (d'.within depth) = .ok a' ∧ P a a'

namespace Codec

variable {α : Type} {c : Codec α} {depth : Nat} {R : Document → Document → Prop}
  {P : α → α → Prop}

/-- A change inside one item changes one item. -/
theorem Carries.list [Rounding] (h : c.Carries depth R P) (i : Nat) :
    (list c).Carries (depth + 1) (Document.AtItem i R) (AtIndex i P) := by
  rintro _ _ as ⟨h'⟩ has
  rw [Document.within_list, read_list_eq_ok_iff] at has
  obtain ⟨items, hitems, has⟩ := has
  obtain ⟨rfl, -⟩ := Document.array.inj hitems
  obtain ⟨as', has', hat⟩ := h'.exists_forall₂ (List.forall₂_map_left_iff.mp has) h
  refine ⟨as', ?_, hat⟩
  rw [Document.within_list, read_list_eq_ok_iff]
  exact ⟨_, rfl, List.forall₂_map_left_iff.mpr has'⟩

theorem Carries.option_list [Rounding] (h : c.Carries depth R P) (i : Nat) :
    (option (.list c)).Carries (depth + 1) (Document.AtItem i R)
      (fun as as' => ∃ bs bs', as = some bs ∧ as' = some bs' ∧ AtIndex i P bs bs') := by
  have hread (items : List Document) :
      (option (.list c)).read ((Document.list items).within (depth + 1)) =
        ((Codec.list c).read ((Document.list items).within (depth + 1))).map some := by
    rw [Document.within_list]
    rfl
  rintro _ _ as ⟨h'⟩ has
  rw [hread] at has
  obtain ⟨bs, hbs, rfl⟩ := eq_ok_of_map_eq_ok has
  obtain ⟨bs', hbs', hat⟩ := h.list i _ _ bs ⟨h'⟩ hbs
  refine ⟨some bs', ?_, bs, bs', rfl, rfl, hat⟩
  rw [hread, hbs']
  rfl

end Codec

section

variable {α : Type} {field : Field α} {form : RecordForm} {name : String} {depth index : Nat}
  {R : Document → Document → Prop} {d d' : Document} {a : α}

/-- What is given as before is read as before. -/
theorem Field.Gets.of_eq {given given' : Option Document} (h : given' = given)
    (hgets : field.Gets (given.map (·.within depth)) a) :
    field.Gets (given'.map (·.within depth)) a := by
  rw [h]
  exact hgets

/-- What the field itself gets is what the change makes of it. -/
theorem Document.AtField.exists_gets {P : α → α → Prop} (h : AtField form name R d d')
    (hform : (form.map Prod.fst).Nodup) (hrecord : d.IsRecord (form.map Prod.fst))
    (hindex : (form.map Prod.fst)[index]? = some name) (hcarry : field.codec.Carries depth R P)
    (hgets : field.Gets ((d.given name index).map (·.within depth)) a) :
    ∃ a', field.Gets ((d'.given name index).map (·.within depth)) a' ∧ P a a' := by
  obtain ⟨e, e', hR, hbefore, hafter⟩ := h.exists_given hform hrecord hindex
  rw [hbefore] at hgets
  rw [hafter]
  exact hcarry e e' a hR hgets

end

/-- The stand-in for a field, if there is one, is read as what the field has when nothing is
given. -/
def Field.HasStandIn {α : Type} (field : Field α) (standIn : Option Document) (depth : Nat) : Prop :=
  ∀ e, standIn = some e → ∀ a, field.codec.read (e.within depth) = .ok a ↔ field.absent = some a

namespace Field

open Document

variable {α : Type} {field : Field α} {depth : Nat}

theorem hasStandIn_none : field.HasStandIn none depth := by
  intro e he
  cases he

theorem hasStandIn_defaulted {name : String} {codec : Codec α} {a : α} {e : Document}
    (h : codec.read (e.within depth) = .ok a) :
    (defaulted name codec a).HasStandIn (some e) depth := by
  intro e' he' a'
  obtain rfl := Option.some.inj he'
  have hread : codec.read (e.within depth) = .ok a' ↔ some a = some a' := by
    rw [h, Except.ok.injEq, Option.some.injEq]
  exact hread

theorem hasStandIn_optional {name : String} {codec : Codec (Option α)}
    (h : codec.read .null = .ok none) :
    (optional name codec).HasStandIn (some .null) depth := by
  intro e he a
  obtain rfl := Option.some.inj he
  have hread : codec.read (within depth .null) = .ok a ↔ some none = some a := by
    rw [within_null, h, Except.ok.injEq, Option.some.injEq]
  exact hread

end Field

namespace Fields

variable {γ σ : Type}

/-- The fields have the names and the stand-ins of a form. -/
def HasForm : {γ σ : Type} → Fields γ σ → RecordForm → Nat → Prop
  | _, _, .nil, form, _ => form = []
  | _, _, .cons field rest, form, depth =>
    ∃ standIn more, form = (field.name, standIn) :: more ∧ field.HasStandIn standIn depth ∧
      rest.HasForm more depth

variable {fs : Fields γ σ} {form : RecordForm} {depth : Nat}

theorem HasForm.cons {α : Type} {field : Field α} {standIn : Option Document}
    (h : field.HasStandIn standIn depth) (hrest : fs.HasForm form depth) :
    (Fields.cons field fs).HasForm ((field.name, standIn) :: form) depth :=
  ⟨standIn, form, rfl, h, hrest⟩

theorem HasForm.names_eq (h : fs.HasForm form depth) : form.map Prod.fst = fs.names := by
  induction fs generalizing form with
  | nil =>
    obtain rfl : form = [] := h
    rfl
  | cons field rest ih =>
    obtain ⟨standIn, more, rfl, -, hrest⟩ := h
    rw [List.map_cons, ih hrest, names]

/-- The fields get the same values if what is given agrees. -/
theorem Gets.of_agrees (hform : fs.HasForm form depth)
    {given given' : String → Nat → Option Document} (h : Document.Agrees form given given') {values : γ}
    (hgets : fs.Gets (fun name index => (given name index).map (·.within depth)) values) :
    fs.Gets (fun name index => (given' name index).map (·.within depth)) values := by
  induction fs generalizing form given given' with
  | nil => trivial
  | cons field rest ih =>
    obtain ⟨standIn, more, rfl, hstands, hrest⟩ := hform
    obtain ⟨a, values⟩ := values
    obtain ⟨hget, hgets⟩ := hgets
    refine ⟨?_, ih hrest (fun index => h (index + 1)) hgets⟩
    change field.Gets ((given field.name 0).map _) a at hget
    change field.Gets ((given' field.name 0).map _) a
    rcases h 0 field.name standIn rfl with hsame | ⟨e, he, ⟨hnone, hsome⟩ | ⟨hsome, hnone⟩⟩
    · rw [hsame]
      exact hget
    · rw [hnone] at hget
      rw [hsome]
      exact (hstands e he a).mpr hget
    · rw [hsome] at hget
      rw [hnone]
      exact (hstands e he a).mp hget

theorem read_within_eq_ok_iff [Rounding] {ρ : Type} (hnames : fs.names.Nodup) {record : String}
    {make : γ → ρ} {parts : ρ → γ} {d : Document} {r : ρ} :
    (fs.codec record make parts).read (d.within (depth + 1)) = .ok r ↔
      d.IsRecord fs.names ∧
        ∃ values, fs.Gets (fun name index => (d.given name index).map (·.within depth)) values ∧
          make values = r := by
  rw [read_codec_eq_ok_iff hnames, Document.isRecord_within]
  simp only [Document.given_within]

/-- **Restating a record leaves what is read from it.** -/
theorem carries_restated [Rounding] {ρ : Type} (hnames : (form.map Prod.fst).Nodup)
    (hform : fs.HasForm form depth) {record : String} {make : γ → ρ} {parts : ρ → γ} :
    (fs.codec record make parts).Carries (depth + 1) (Document.Restated form) Eq := by
  intro d d' r h hr
  have hnames' : fs.names.Nodup := hform.names_eq ▸ hnames
  obtain ⟨hrecord, values, hgets, rfl⟩ := (read_within_eq_ok_iff hnames').mp hr
  rw [← hform.names_eq] at hrecord
  obtain ⟨hrecord', hagrees⟩ := h.agrees hnames hrecord
  refine ⟨make values, ?_, rfl⟩
  refine (read_within_eq_ok_iff hnames').mpr ⟨?_, values, ?_, rfl⟩
  · rw [← hform.names_eq]
    exact hrecord'
  · exact hgets.of_agrees hform hagrees

end Fields

end Json

end LayerQuery
