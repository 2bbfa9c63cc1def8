import LayerQuery.Json.Record
import LayerQuery.Proofs.Lists
/-!
# What a record is read from

A record is read from a document if the document has the form of a
record, and if each field gets its value from what the document gives for
it (`Fields.read_eq_ok_iff`). What is given for a field is the value of
its name in an object and the item at its index in a list, so the two
forms differ in nothing else, and neither the order of members nor the
members that are no fields come into it.

An object is read member by member into places. `Fields.Fill` says what
the places hold after some members: `put` keeps it, and so does `putAll`.
-/

namespace LayerQuery

namespace Json

/-- What a document gives for a field: the value of its name or the item at its index. -/
def Document.given (name : String) (index : Nat) : Document → Option Document
  | .object members _ => members.lookup (some name)
  | .array items _ => items[index]?
  | _ => none

theorem lookup_cons_of_ne {name other : String} (h : other ≠ name) (d : Document)
    (ms : List Member) : ((some name, d) :: ms).lookup (some other) = ms.lookup (some other) := by
  have hne : (some other == some name) = false :=
    beq_eq_false_iff_ne.mpr fun heq => h (Option.some.inj heq)
  rw [List.lookup_cons, hne]

/-- An object whose names are texts, none of the given ones coming twice, or a list with no more
items than there are names. -/
def Document.IsRecord (names : List String) : Document → Prop
  | .object members closed =>
    closed = true ∧ (∀ m ∈ members, m.1.isSome = true) ∧
      ∀ name ∈ names, (members.map Prod.fst).count (some name) ≤ 1
  | .array items closed => closed = true ∧ items.length ≤ names.length
  | _ => False

/-- A field gets its value from what is given, or the value for when nothing is. -/
def Field.Gets {α : Type} (field : Field α) (given : Option Document) (a : α) : Prop :=
  match given with
  | some d => field.codec.read d = .ok a
  | none => field.absent = some a

/-- The place of a field holds what was read from what is given, if anything is. -/
def Field.Holds {α : Type} (field : Field α) (given : Option Document) (place : Option α) : Prop :=
  match given with
  | some d => ∃ a, place = some a ∧ field.codec.read d = .ok a
  | none => place = none

theorem Field.Holds.unique {α : Type} {field : Field α} {given : Option Document}
    {place place' : Option α} (h : field.Holds given place) (h' : field.Holds given place') :
    place = place' := by
  cases given with
  | none => exact h.trans h'.symm
  | some d =>
    obtain ⟨a, ha, hread⟩ := h
    obtain ⟨a', ha', hread'⟩ := h'
    obtain rfl := Except.ok.inj (hread.symm.trans hread')
    exact ha.trans ha'.symm

namespace Fields

variable {γ σ : Type}

/-- The names of the fields in order. -/
def names : {γ σ : Type} → Fields γ σ → List String
  | _, _, .nil => []
  | _, _, .cons field rest => field.name :: rest.names

/-- All fields get their values, what is given for a field depending on its name and its index. -/
def Gets : {γ σ : Type} → Fields γ σ → (String → Nat → Option Document) → γ → Prop
  | _, _, .nil, _, _ => True
  | _, _, .cons field rest, given, (a, values) =>
    field.Gets (given field.name 0) a ∧ rest.Gets (fun name index => given name (index + 1)) values

theorem Gets.congr {fs : Fields γ σ} {given given' : String → Nat → Option Document} {values : γ}
    (h : ∀ name ∈ fs.names, ∀ index, given name index = given' name index)
    (hgets : fs.Gets given values) : fs.Gets given' values := by
  induction fs generalizing given given' with
  | nil => trivial
  | cons field rest ih =>
    obtain ⟨hfield, hrest⟩ := List.forall_mem_cons.mp h
    obtain ⟨hget, hgets⟩ := hgets
    exact ⟨hfield 0 ▸ hget, ih (fun name hname index => hrest name hname (index + 1)) hgets⟩

/-! ## Objects -/

/-- The places hold what was read from the members so far. -/
def Fill : {γ σ : Type} → Fields γ σ → (String → Option Document) → σ → Prop
  | _, _, .nil, _, _ => True
  | _, _, .cons field rest, given, (place, places) =>
    field.Holds (given field.name) place ∧ rest.Fill given places

theorem fill_blank (fs : Fields γ σ) : fs.Fill (fun _ => none) fs.blank := by
  induction fs with
  | nil => trivial
  | cons field rest ih => exact ⟨rfl, ih⟩

theorem Fill.congr {fs : Fields γ σ} {given given' : String → Option Document} {places : σ}
    (h : ∀ name ∈ fs.names, given name = given' name) (hfill : fs.Fill given places) :
    fs.Fill given' places := by
  induction fs with
  | nil => trivial
  | cons field rest ih =>
    obtain ⟨hfield, hrest⟩ := List.forall_mem_cons.mp h
    obtain ⟨hplace, hplaces⟩ := hfill
    exact ⟨hfield ▸ hplace, ih hrest hplaces⟩

/-- Members determine what is in the places. -/
theorem Fill.unique {fs : Fields γ σ} {given : String → Option Document} {places places' : σ}
    (h : fs.Fill given places) (h' : fs.Fill given places') : places = places' := by
  induction fs with
  | nil => rfl
  | cons field rest ih => exact Prod.ext (h.1.unique h'.1) (ih h.2 h'.2)

/-- Places are filled from two sources if each field is filled from one. -/
theorem exists_fill {fs : Fields γ σ} {given given' mixed : String → Option Document}
    {places places' : σ} (h : fs.Fill given places) (h' : fs.Fill given' places')
    (hmixed : ∀ name ∈ fs.names, mixed name = given name ∨ mixed name = given' name) :
    ∃ filled, fs.Fill mixed filled := by
  induction fs with
  | nil => exact ⟨(), trivial⟩
  | cons field rest ih =>
    obtain ⟨hfield, hrest⟩ := List.forall_mem_cons.mp hmixed
    obtain ⟨filled, hfilled⟩ := ih h.2 h'.2 hrest
    rcases hfield with hfield | hfield
    · exact ⟨(places.1, filled), hfield ▸ h.1, hfilled⟩
    · exact ⟨(places'.1, filled), hfield ▸ h'.1, hfilled⟩

/-- What is given once a member was put. -/
def more (given : String → Option Document) (name : String) (d : Document) (other : String) :
    Option Document :=
  if other = name then some d else given other

theorem put_of_not_mem {fs : Fields γ σ} (places : σ) {name : String} (h : name ∉ fs.names)
    (d : Document) : fs.put places name d = none := by
  induction fs with
  | nil => rfl
  | cons field rest ih =>
    have hname : field.name ≠ name := fun hname => h (hname ▸ List.mem_cons_self)
    have hrest : name ∉ rest.names := fun hrest => h (List.mem_cons_of_mem _ hrest)
    obtain ⟨place, places⟩ := places
    refine (if_neg hname).trans ?_
    rw [ih places hrest, Option.map_none]

theorem put_of_ne {α : Type} {field : Field α} {rest : Fields γ σ} {name : String}
    (h : field.name ≠ name) (place : Option α) (places : σ) (d : Document) :
    (Fields.cons field rest).put (place, places) name d =
      (rest.put places name d).map (Except.map fun places => (place, places)) :=
  if_neg h

/-- A member of the first field goes into the first place. -/
theorem exists_put_self {α : Type} {field : Field α} {rest : Fields γ σ}
    (hfresh : field.name ∉ rest.names) {given : String → Option Document} {places : Option α × σ}
    (hfill : (Fields.cons field rest).Fill given places) (d : Document) :
    ∃ result, (Fields.cons field rest).put places field.name d = some result ∧
      ∀ places', result = .ok places' ↔
        given field.name = none ∧ (Fields.cons field rest).Fill (more given field.name d) places' := by
  obtain ⟨place, places⟩ := places
  obtain ⟨hplace, hplaces⟩ := hfill
  refine ⟨_, if_pos rfl, fun places' => ?_⟩
  have hfield : more given field.name d field.name = some d := if_pos rfl
  have hrest : rest.Fill (more given field.name d) places := by
    refine hplaces.congr fun other hother => (if_neg ?_).symm
    rintro rfl
    exact hfresh hother
  cases hgiven : given field.name with
  | some e =>
    rw [hgiven] at hplace
    obtain ⟨a, rfl, -⟩ := hplace
    simp
  | none =>
    rw [hgiven] at hplace
    obtain rfl : place = none := hplace
    constructor
    · intro hput
      obtain ⟨a, hread, rfl⟩ := eq_ok_of_map_eq_ok hput
      refine ⟨rfl, ?_, hrest⟩
      rw [hfield]
      exact ⟨a, rfl, hread⟩
    · rintro ⟨-, hput, hputs⟩
      obtain ⟨place', places'⟩ := places'
      rw [hfield] at hput
      obtain ⟨a, rfl, hread⟩ := hput
      obtain rfl := hputs.unique hrest
      simp only [hread]
      rfl

/-- **A member is put into a place that is empty so far**, if its value is
read. -/
theorem exists_put {fs : Fields γ σ} (hnames : fs.names.Nodup) {given : String → Option Document}
    {places : σ} (hfill : fs.Fill given places) {name : String} (hname : name ∈ fs.names)
    (d : Document) :
    ∃ result, fs.put places name d = some result ∧
      ∀ places', result = .ok places' ↔ given name = none ∧ fs.Fill (more given name d) places' := by
  induction fs with
  | nil => exact absurd hname List.not_mem_nil
  | cons field rest ih =>
    obtain ⟨hfresh, hnames⟩ := List.nodup_cons.mp hnames
    by_cases heq : field.name = name
    · subst heq
      exact exists_put_self hfresh hfill d
    obtain ⟨place, places⟩ := places
    obtain ⟨hplace, hplaces⟩ := hfill
    have hrest : name ∈ rest.names := (List.mem_cons.mp hname).resolve_left (Ne.symm heq)
    obtain ⟨result, hresult, hiff⟩ := ih hnames hplaces hrest
    have hfield : more given name d field.name = given field.name := if_neg heq
    refine ⟨result.map fun places => (place, places), ?_, fun places' => ⟨?_, ?_⟩⟩
    · rw [put_of_ne heq, hresult, Option.map_some]
    · intro hput
      obtain ⟨puts, hputs, rfl⟩ := eq_ok_of_map_eq_ok hput
      obtain ⟨hnone, hputs⟩ := (hiff puts).mp hputs
      exact ⟨hnone, hfield ▸ hplace, hputs⟩
    · rintro ⟨hnone, hput, hputs⟩
      obtain ⟨place', places'⟩ := places'
      rw [hfield] at hput
      obtain rfl := hput.unique hplace
      rw [(hiff places').mpr ⟨hnone, hputs⟩]
      rfl

/-- The members can be put where something is given already, each name coming once at most, and
then the places hold what was given and what they bring. -/
def Takes (fs : Fields γ σ) (given : String → Option Document) (ms : List Member) (places : σ) :
    Prop :=
  (∀ m ∈ ms, m.1.isSome = true) ∧
    (∀ name ∈ fs.names, (ms.map Prod.fst).count (some name) + (given name).toList.length ≤ 1) ∧
      fs.Fill (fun name => (given name).or (ms.lookup (some name))) places

theorem takes_nil_iff {fs : Fields γ σ} {given : String → Option Document} {places : σ} :
    fs.Takes given [] places ↔ fs.Fill given places := by
  have hlookup : (fun name => (given name).or (List.lookup (some name) ([] : List Member))) = given :=
    funext fun name => Option.or_none
  rw [Takes, hlookup]
  refine ⟨fun h => h.2.2, fun h => ⟨fun m hm => absurd hm List.not_mem_nil, fun name _ => ?_, h⟩⟩
  cases given name <;> simp

/-- A member that is no field is passed over. -/
theorem takes_cons_iff_of_not_mem {fs : Fields γ σ} {given : String → Option Document}
    {ms : List Member} {places : σ} {name : String} (hname : name ∉ fs.names) (d : Document) :
    fs.Takes given ((some name, d) :: ms) places ↔ fs.Takes given ms places := by
  have hne (other : String) (hother : other ∈ fs.names) : other ≠ name := by
    rintro rfl
    exact hname hother
  have hcount (other : String) (hother : other ∈ fs.names) :
      (((some name, d) :: ms).map Prod.fst).count (some other) =
        (ms.map Prod.fst).count (some other) := by
    simp [Ne.symm (hne other hother)]
  have hlookup (other : String) (hother : other ∈ fs.names) :
      ((some name, d) :: ms).lookup (some other) = ms.lookup (some other) :=
    lookup_cons_of_ne (hne other hother) d ms
  refine and_congr (by simp) (and_congr ?_ ⟨?_, ?_⟩)
  · exact forall₂_congr fun other hother => by rw [hcount other hother]
  · exact fun h => h.congr fun other hother => by rw [hlookup other hother]
  · exact fun h => h.congr fun other hother => by rw [hlookup other hother]

/-- A member of a field counts as given to those that come after it. -/
theorem takes_cons_iff_of_mem {fs : Fields γ σ} {given : String → Option Document}
    {ms : List Member} {places : σ} {name : String} (hname : name ∈ fs.names) (d : Document) :
    fs.Takes given ((some name, d) :: ms) places ↔
      given name = none ∧ fs.Takes (more given name d) ms places := by
  have hmove (hnone : given name = none) :
      fs.Takes given ((some name, d) :: ms) places ↔ fs.Takes (more given name d) ms places := by
    have hsame (other : String) :
        (((some name, d) :: ms).map Prod.fst).count (some other) + (given other).toList.length =
            (ms.map Prod.fst).count (some other) + (more given name d other).toList.length ∧
          (given other).or (((some name, d) :: ms).lookup (some other)) =
            (more given name d other).or (ms.lookup (some other)) := by
      by_cases heq : other = name
      · subst heq
        simp [more, hnone]
      · simp [more, heq, Ne.symm heq, lookup_cons_of_ne heq]
    rw [Takes, Takes, funext fun other => (hsame other).2]
    refine and_congr (by simp) (and_congr_left fun _ => ?_)
    exact forall₂_congr fun other _ => by rw [(hsame other).1]
  constructor
  · intro h
    have hnone : given name = none := by
      have hone := h.2.1 name hname
      cases hgiven : given name with
      | none => rfl
      | some e => simp [hgiven] at hone
    exact ⟨hnone, (hmove hnone).mp h⟩
  · rintro ⟨hnone, h⟩
    exact (hmove hnone).mpr h

/-- **Members are put one after the other**, each name coming once at
most. -/
theorem putAll_eq_ok_iff {fs : Fields γ σ} (hnames : fs.names.Nodup) {ms : List Member}
    {given : String → Option Document} {places places' : σ} (hfill : fs.Fill given places) :
    fs.putAll places ms = .ok places' ↔ fs.Takes given ms places' := by
  induction ms generalizing given places with
  | nil =>
    rw [putAll, takes_nil_iff, Except.ok.injEq]
    exact ⟨fun h => h ▸ hfill, fun h => hfill.unique h⟩
  | cons m ms ih =>
    obtain ⟨_ | name, d⟩ := m
    · simp [putAll, Takes]
    by_cases hname : name ∈ fs.names
    · obtain ⟨result, hput, hiff⟩ := exists_put hnames hfill hname d
      have hputAll : fs.putAll places ((some name, d) :: ms) = result.bind (fs.putAll · ms) := by
        simp only [putAll, hput]
        rfl
      rw [hputAll, takes_cons_iff_of_mem hname]
      constructor
      · intro h
        obtain ⟨puts, hputs, h⟩ := eq_ok_of_bind_eq_ok h
        obtain ⟨hnone, hfill'⟩ := (hiff puts).mp hputs
        exact ⟨hnone, (ih hfill').mp h⟩
      · rintro ⟨hnone, h⟩
        -- the places with this member hold it from the end and the rest from the start
        have hmixed (other : String) : more given name d other = given other ∨
            more given name d other = (more given name d other).or (ms.lookup (some other)) := by
          by_cases heq : other = name
          · exact .inr (by simp [more, heq])
          · exact .inl (if_neg heq)
        obtain ⟨puts, hputs⟩ := exists_fill hfill h.2.2 fun other _ => hmixed other
        rw [(hiff puts).mpr ⟨hnone, hputs⟩]
        exact (ih hputs).mpr h
    · have hputAll : fs.putAll places ((some name, d) :: ms) = fs.putAll places ms := by
        simp only [putAll, put_of_not_mem places hname d]
      rw [hputAll, ih hfill, takes_cons_iff_of_not_mem hname]

/-- What the fields get can be put into places first. -/
theorem Gets.exists_fill {fs : Fields γ σ} {given : String → Option Document} {values : γ}
    (h : fs.Gets (fun name _ => given name) values) : ∃ places, fs.Fill given places := by
  induction fs with
  | nil => exact ⟨(), trivial⟩
  | cons field rest ih =>
    obtain ⟨a, values⟩ := values
    obtain ⟨hget, hgets⟩ := h
    obtain ⟨places, hplaces⟩ := ih hgets
    have hplace : ∃ place, field.Holds (given field.name) place := by
      change field.Gets (given field.name) a at hget
      cases hgiven : given field.name with
      | none => exact ⟨none, rfl⟩
      | some d =>
        rw [hgiven] at hget
        exact ⟨some a, a, rfl, hget⟩
    obtain ⟨place, hplace⟩ := hplace
    exact ⟨(place, places), hplace, hplaces⟩

theorem complete_eq_ok_iff {fs : Fields γ σ} {given : String → Option Document} {places : σ}
    (hfill : fs.Fill given places) {values : γ} :
    fs.complete places = .ok values ↔ fs.Gets (fun name _ => given name) values := by
  induction fs with
  | nil => exact ⟨fun _ => trivial, fun _ => rfl⟩
  | cons field rest ih =>
    obtain ⟨place, places⟩ := places
    obtain ⟨a, values⟩ := values
    obtain ⟨hplace, hplaces⟩ := hfill
    have hcomplete : (Fields.cons field rest).complete (place, places) = .ok (a, values) ↔
        place.or field.absent = some a ∧ rest.complete places = .ok values := by
      cases hor : place.or field.absent with
      | none => simp [complete, hor, bind, Except.bind]
      | some b => cases hrest : rest.complete places <;> simp [complete, hor, hrest, bind, Except.bind]
    have hgets : place.or field.absent = some a ↔ field.Gets (given field.name) a := by
      unfold Field.Gets
      cases hgiven : given field.name with
      | none =>
        rw [hgiven] at hplace
        obtain rfl : place = none := hplace
        rfl
      | some d =>
        rw [hgiven] at hplace
        obtain ⟨b, rfl, hread⟩ := hplace
        simp [hread]
    exact hcomplete.trans (and_congr hgets (ih hplaces))

/-! ## Lists -/

theorem readItems_eq_ok_iff {fs : Fields γ σ} {record : String} {total index : Nat}
    {items : List Document} {closed : Bool} {values : γ} :
    fs.readItems record total index items closed = .ok values ↔
      (closed = true ∧ items.length ≤ fs.names.length) ∧
        fs.Gets (fun _ index => items[index]?) values := by
  induction fs generalizing index items with
  | nil =>
    cases items <;> cases closed <;> simp [readItems, names, Gets]
  | cons field rest ih =>
    obtain ⟨a, values⟩ := values
    cases items with
    | nil =>
      have hread : (Fields.cons field rest).readItems record total index [] closed =
            .ok (a, values) ↔
          (closed = true ∧ field.absent = some a) ∧
            rest.readItems record total (index + 1) [] closed = .ok values := by
        cases closed with
        | false => simp [readItems, bind, Except.bind]
        | true =>
          cases habsent : field.absent with
          | none => simp [readItems, habsent, bind, Except.bind]
          | some b =>
            cases hrest : rest.readItems record total (index + 1) [] true <;>
              simp [readItems, habsent, hrest, bind, Except.bind]
      have hgets : (Fields.cons field rest).Gets (fun _ index => [][index]?) (a, values) ↔
          field.absent = some a ∧ rest.Gets (fun _ index => [][index]?) values := Iff.rfl
      rw [hread, ih, hgets]
      simp only [List.length_nil, Nat.zero_le, and_true]
      tauto
    | cons d ds =>
      have hread : (Fields.cons field rest).readItems record total index (d :: ds) closed =
            .ok (a, values) ↔
          field.codec.read d = .ok a ∧
            rest.readItems record total (index + 1) ds closed = .ok values := by
        cases hd : field.codec.read d with
        | error e => simp [readItems, hd, bind, Except.bind]
        | ok b =>
          cases hrest : rest.readItems record total (index + 1) ds closed <;>
            simp [readItems, hd, hrest, bind, Except.bind]
      have hgets : (Fields.cons field rest).Gets (fun _ index => (d :: ds)[index]?) (a, values) ↔
          field.codec.read d = .ok a ∧ rest.Gets (fun _ index => ds[index]?) values := Iff.rfl
      rw [hread, ih, hgets, names, List.length_cons, List.length_cons, Nat.succ_le_succ_iff]
      tauto

/-- **A record is read from what is given for its fields**, in either
form. -/
theorem read_eq_ok_iff [Rounding] {fs : Fields γ σ} (hnames : fs.names.Nodup) {record : String}
    {d : Document} {values : γ} :
    fs.read record d = .ok values ↔
      d.IsRecord fs.names ∧ fs.Gets (fun name index => d.given name index) values := by
  cases d with
  | object members closed =>
    have hputAll {places : σ} : fs.putAll fs.blank members = .ok places ↔ _ :=
      putAll_eq_ok_iff hnames fs.fill_blank
    have hread : fs.read record (.object members closed) = .ok values ↔
        ∃ places, fs.putAll fs.blank members = .ok places ∧ closed = true ∧
          fs.complete places = .ok values := by
      cases hput : fs.putAll fs.blank members with
      | error e => simp [read, hput, bind, Except.bind]
      | ok places => cases closed <;> simp [read, hput, bind, Except.bind]
    rw [hread]
    constructor
    · rintro ⟨places, hput, rfl, hcomplete⟩
      obtain ⟨hall, honce, hfill⟩ := hputAll.mp hput
      exact ⟨⟨rfl, hall, honce⟩, (complete_eq_ok_iff hfill).mp hcomplete⟩
    · rintro ⟨⟨rfl, hall, honce⟩, hgets⟩
      obtain ⟨places, hfill⟩ := hgets.exists_fill
      exact ⟨places, hputAll.mpr ⟨hall, honce, hfill⟩, rfl, (complete_eq_ok_iff hfill).mpr hgets⟩
  | array items closed => exact readItems_eq_ok_iff
  | null | boolean | number | string | broken =>
    constructor
    · intro h
      cases h
    · intro h
      exact absurd h.1 id

/-- A record is made of the values of its fields. -/
theorem read_codec_eq_ok_iff [Rounding] {ρ : Type} {fs : Fields γ σ} (hnames : fs.names.Nodup)
    {record : String} {make : γ → ρ} {parts : ρ → γ} {d : Document} {r : ρ} :
    (fs.codec record make parts).read d = .ok r ↔
      d.IsRecord fs.names ∧
        ∃ values, fs.Gets (fun name index => d.given name index) values ∧ make values = r := by
  constructor
  · intro h
    obtain ⟨values, hread, rfl⟩ := eq_ok_of_map_eq_ok h
    obtain ⟨hrecord, hgets⟩ := (read_eq_ok_iff hnames).mp hread
    exact ⟨hrecord, values, hgets, rfl⟩
  · rintro ⟨hrecord, values, hgets, rfl⟩
    have hread : fs.read record d = .ok values := (read_eq_ok_iff hnames).mpr ⟨hrecord, hgets⟩
    exact congrArg (Except.map make) hread

end Fields

/-! ## Below a depth

What is cut off below a depth takes nothing from the record above it. -/

namespace Document

theorem given_within (d : Document) (depth : Nat) (name : String) (index : Nat) :
    (d.within (depth + 1)).given name index = (d.given name index).map (within depth) := by
  cases d with
  | array items closed => rw [within, given, given, allWithin_eq_map, List.getElem?_map]
  | object members closed =>
    rw [within, given, given, membersWithin_eq_map]
    induction members with
    | nil => rfl
    | cons m ms ih =>
      rw [List.map_cons, List.lookup_cons, List.lookup_cons]
      cases some name == m.1 with
      | true => rfl
      | false => exact ih
  | null | boolean | number | string | broken => rfl

/-- At the limit no record is left. -/
theorem not_isRecord_within_zero (d : Document) {names : List String} :
    ¬ (d.within 0).IsRecord names := by
  cases d with
  | array items closed => exact fun h => Bool.false_ne_true h.1
  | object members closed => exact fun h => Bool.false_ne_true h.1
  | null | boolean | number | string | broken => exact id

theorem isRecord_within (d : Document) (depth : Nat) (names : List String) :
    (d.within (depth + 1)).IsRecord names ↔ d.IsRecord names := by
  cases d with
  | array items closed => rw [within, IsRecord, IsRecord, allWithin_eq_map, List.length_map]
  | object members closed =>
    rw [within, IsRecord, IsRecord, membersWithin_eq_map, List.forall_mem_map, List.map_map]
    rfl
  | null | boolean | number | string | broken => rfl

end Document

end Json

end LayerQuery
