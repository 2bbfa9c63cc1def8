import LayerQuery.Criteria.Test
import LayerQuery.Proofs.Records
import LayerQuery.Proofs.Rounding
import LayerQuery.Proofs.Writing
import LayerQuery.Relations.Fragment
import LayerQuery.Relations.Outline
import Mathlib.Data.List.Nodup
/-!
# Values come back from their texts

A codec keeps a value if it reads it again from the document that it
writes for it, and the document is sound and not nested too deeply
(`Codec.Keeps`). Then the value comes back from its text
(`Keeps.ofText_toText`). A codec that keeps whatever it reads is
faithful, and faithfulness is handed on: from the codec of items to that
of lists, from the codecs of fields to that of the record.

Not all values are kept, only those that can be read. A number that is
not finite, for one, is written as null; but no text reads to it.
-/

namespace LayerQuery

namespace Json

variable {α : Type}

/-- **The value is kept**: it is read again from its document, which is
sound and nested at most so deeply. -/
structure Codec.Keeps (c : Codec α) (depth : Nat) (a : α) : Prop where
  read_write : c.read (c.write a) = .ok a
  isSound : (c.write a).isSound = true
  depth_le : (c.write a).depth ≤ depth

/-- Every value is kept that is read from any document. -/
def Codec.IsFaithful (c : Codec α) (depth : Nat) : Prop :=
  ∀ d a, c.read d = .ok a → c.Keeps depth a

namespace Codec

variable {c : Codec α} {depth : Nat} {a : α}

theorem ofText_eq_ok_iff {text : String} :
    c.ofText text = .ok a ↔ ∃ d, Json.read text = ⟨d, true⟩ ∧ c.read (d.within depthLimit) = .ok a := by
  generalize hreading : Json.read text = reading
  obtain ⟨d, clean⟩ := reading
  have hofText : c.ofText text =
      (c.read (d.within depthLimit)).bind fun a => if clean then .ok a else .error .malformed := by
    rw [ofText, hreading]
    rfl
  rw [hofText]
  constructor
  · intro h
    obtain ⟨a', ha', h⟩ := eq_ok_of_bind_eq_ok h
    cases clean with
    | false => cases h
    | true => exact ⟨d, rfl, Except.ok.inj h ▸ ha'⟩
  · rintro ⟨d', hd', ha⟩
    obtain ⟨rfl, rfl⟩ := Reading.mk.inj hd'
    rw [ha]
    rfl

/-- A value is read from its own text as it is from its document. -/
theorem ofText_toText_eq (h : (c.write a).isSound = true) :
    c.ofText (c.toText a) = c.read ((c.write a).within depthLimit) := by
  have hread : Json.read (c.toText a) = ⟨c.write a, true⟩ := Document.read_text h
  rw [ofText, hread]
  cases c.read ((c.write a).within depthLimit) <;> rfl

/-- **A value that is kept comes back from its text.** -/
theorem Keeps.ofText_toText (h : c.Keeps depth a) (hdepth : depth ≤ depthLimit) :
    c.ofText (c.toText a) = .ok a := by
  rw [ofText_toText_eq h.isSound, Document.within_eq_self (h.depth_le.trans hdepth)]
  exact h.read_write

/-- Whatever text a value was read from, its own text gives it again. -/
def RoundTrips (c : Codec α) : Prop :=
  ∀ text a, c.ofText text = .ok a → c.ofText (c.toText a) = .ok a

theorem IsFaithful.roundTrips (h : c.IsFaithful depth) (hdepth : depth ≤ depthLimit) :
    c.RoundTrips := by
  intro text a ha
  obtain ⟨d, -, hread⟩ := ofText_eq_ok_iff.mp ha
  exact (h _ a hread).ofText_toText hdepth

/-! ## Simple types -/

theorem isFaithful_text : text.IsFaithful depth := by
  intro d s _
  exact ⟨rfl, rfl, Nat.zero_le depth⟩

/-- An integer of a signed word is read from its digits. -/
theorem integerOfNumeral?_toInt (n : Int64) :
    integerOfNumeral? ⟨decide (n.toInt < 0), n.toInt.natAbs, [], none⟩ = some n.toInt := by
  have hlow : -2 ^ 63 ≤ n.toInt := n.le_toInt
  have hhigh : n.toInt < 2 ^ 63 := n.toInt_lt
  have hword : twoPow 63 = 2 ^ 63 := twoPow_eq 63
  have hlimit : twoPow 64 = 2 ^ 64 := twoPow_eq 64
  simp only [integerOfNumeral?, List.isEmpty_nil, Option.isNone_none, Bool.and_self, if_true,
    hword, hlimit, decide_eq_true_eq]
  split
  · rw [if_pos (by omega)]
    exact congrArg some (by omega)
  · rw [if_pos (by omega)]
    exact congrArg some (by omega)

theorem inWord_toInt (n : Int64) : inWord n.toInt = true := by
  have hlow : -2 ^ 63 ≤ n.toInt := n.le_toInt
  have hhigh : n.toInt < 2 ^ 63 := n.toInt_lt
  have hword : twoPow 63 = 2 ^ 63 := twoPow_eq 63
  simp only [inWord, hword, Bool.and_eq_true, decide_eq_true_eq]
  omega

theorem isSound_ofInt (n : Int64) : (Document.ofInt n.toInt).isSound = true := by
  rw [Document.ofInt, Document.isSound, numberOfNumeral?, integerOfNumeral?_toInt]
  rfl

theorem readInt64_ofInt (n : Int64) : readInt64 (Document.ofInt n.toInt) = .ok n := by
  simp only [Document.ofInt, readInt64, integerOfNumeral?_toInt, inWord_toInt, if_true,
    Int64.ofInt_toInt]

theorem keeps_int64 (n : Int64) : int64.Keeps depth n :=
  ⟨readInt64_ofInt n, isSound_ofInt n, Nat.zero_le depth⟩

theorem isFaithful_int64 : int64.IsFaithful depth :=
  fun _ n _ => keeps_int64 n

/-! ## Lists and unset values -/

theorem readItems_eq_mapM (ds : List Document) : c.readItems ds = ds.mapM c.read := by
  induction ds with
  | nil => rfl
  | cons d ds ih => rw [readItems, ih, List.mapM_cons]; rfl

theorem read_list_eq_ok_iff [Rounding] {d : Document} {as : List α} :
    (list c).read d = .ok as ↔
      ∃ items, d = .array items true ∧ List.Forall₂ (fun d a => c.read d = .ok a) items as := by
  have harray (items : List Document) (closed : Bool) : (list c).read (.array items closed) =
      (items.mapM c.read).bind fun as => if closed then .ok as else .error .malformed := by
    rw [← readItems_eq_mapM]
    rfl
  constructor
  · intro h
    cases d with
    | array items closed =>
      rw [harray] at h
      obtain ⟨as', has, h⟩ := eq_ok_of_bind_eq_ok h
      cases closed with
      | false => cases h
      | true => exact ⟨items, rfl, mapM_eq_ok_iff.mp (Except.ok.inj h ▸ has)⟩
    | _ => cases h
  · rintro ⟨items, rfl, has⟩
    rw [harray, mapM_eq_ok_iff.mpr has]
    rfl

/-- If all items are kept, so is the list. -/
theorem Keeps.list {as : List α} (h : ∀ a ∈ as, c.Keeps depth a) :
    (list c).Keeps (depth + 1) as where
  read_write := by
    refine read_list_eq_ok_iff.mpr ⟨as.map c.write, rfl, ?_⟩
    rw [List.forall₂_map_left_iff, List.forall₂_same]
    exact fun a ha => (h a ha).read_write
  isSound := by
    have hall : (as.map c.write).all Document.isSound = true := by
      rw [List.all_map, List.all_eq_true]
      exact fun a ha => (h a ha).isSound
    have hwrite : (Codec.list c).write as = .array (as.map c.write) true := rfl
    rw [hwrite, Document.isSound, Document.allSound_eq_all, hall]
    rfl
  depth_le := by
    have hall : Document.allDepth (as.map c.write) ≤ depth :=
      Document.allDepth_le_iff.mpr (List.forall_mem_map.mpr fun a ha => (h a ha).depth_le)
    exact Nat.succ_le_succ hall

theorem IsFaithful.list (h : c.IsFaithful depth) : (list c).IsFaithful (depth + 1) := by
  intro d as has
  obtain ⟨items, -, hitems⟩ := read_list_eq_ok_iff.mp has
  refine Keeps.list fun a ha => ?_
  obtain ⟨item, -, hitem⟩ := exists_of_mem_of_forall₂ hitems ha
  exact h item a hitem

theorem read_option_of_ne_null {d : Document} (h : d ≠ .null) :
    (option c).read d = (c.read d).map some := by
  cases d with
  | null => exact absurd rfl h
  | _ => rfl

/-- What is unset and what is set are kept apart, since no value is read
from null. -/
theorem Keeps.option (h : c.Keeps depth a) (hnull : ∀ a, c.read .null ≠ .ok a) :
    (option c).Keeps depth (some a) := by
  have hwrite : c.write a ≠ .null := fun hwrite => hnull a (hwrite ▸ h.read_write)
  refine ⟨?_, h.isSound, h.depth_le⟩
  refine (read_option_of_ne_null hwrite).trans ?_
  rw [h.read_write]
  rfl

theorem IsFaithful.option (h : c.IsFaithful depth) (hnull : ∀ a, c.read .null ≠ .ok a) :
    (option c).IsFaithful depth := by
  intro d a ha
  by_cases hd : d = .null
  · subst hd
    obtain rfl := Except.ok.inj ha
    exact ⟨rfl, rfl, Nat.zero_le _⟩
  · rw [read_option_of_ne_null hd] at ha
    obtain ⟨a, hread, rfl⟩ := eq_ok_of_map_eq_ok ha
    exact (h d a hread).option hnull

/-! ## Choices -/

theorem lookup_of_mem {names : List (String × α)} (hnames : (names.map Prod.fst).Nodup)
    {name : String} (h : (name, a) ∈ names) : names.lookup name = some a := by
  induction names with
  | nil => exact absurd h List.not_mem_nil
  | cons n names ih =>
    obtain ⟨hfresh, hnames⟩ := List.nodup_cons.mp hnames
    rw [List.lookup_cons]
    rcases List.mem_cons.mp h with rfl | h
    · simp
    · have hne : (name == n.1) = false := by
        rw [beq_eq_false_iff_ne]
        rintro rfl
        exact hfresh (List.mem_map.mpr ⟨_, h, rfl⟩)
      rw [hne, ih hnames h]

theorem mem_of_choose {names : List (String × α)} {name : String}
    (h : choose names name = .ok a) : (name, a) ∈ names := by
  unfold choose at h
  split at h
  · next b hb =>
    obtain ⟨front, rest, rfl, -⟩ := List.lookup_eq_some_iff.mp hb
    obtain rfl := Except.ok.inj h
    exact List.mem_append_right front List.mem_cons_self
  · cases h

theorem exists_mem_of_readChoice {names : List (String × α)} {d : Document}
    (h : readChoice names d = .ok a) : ∃ name, (name, a) ∈ names := by
  unfold readChoice at h
  split at h
  · exact ⟨_, mem_of_choose h⟩
  · obtain ⟨b, hb, h⟩ := eq_ok_of_bind_eq_ok h
    split at h
    · split at h
      · obtain rfl := Except.ok.inj h
        exact ⟨_, mem_of_choose hb⟩
      · cases h
    · cases h
  · cases h

/-- A choice is written by a name that it goes by. -/
theorem choose_nameOf [DecidableEq α] {names : List (String × α)}
    (hnames : (names.map Prod.fst).Nodup) {name : String} (h : (name, a) ∈ names) :
    choose names (nameOf names a) = .ok a := by
  have hfound : (names.find? fun n => n.2 = a).isSome = true :=
    List.find?_isSome.mpr ⟨_, h, decide_eq_true rfl⟩
  obtain ⟨⟨first, b⟩, hfind⟩ := Option.isSome_iff_exists.mp hfound
  have hb := List.find?_some hfind
  obtain rfl : b = a := of_decide_eq_true hb
  have hlookup := lookup_of_mem hnames (List.mem_of_find?_eq_some hfind)
  have hname : nameOf names b = first := by
    rw [nameOf, hfind]
    rfl
  rw [choose, hname, hlookup]

theorem isFaithful_choice [DecidableEq α] {names : List (String × α)}
    (hnames : (names.map Prod.fst).Nodup) : (choice names).IsFaithful depth := by
  intro d a ha
  obtain ⟨name, hname⟩ := exists_mem_of_readChoice ha
  exact ⟨choose_nameOf hnames hname, rfl, Nat.zero_le depth⟩

end Codec

/-! ## Records -/

/-- A value that a field can have comes back, whether it is written or
left out. -/
def Field.IsFaithful (field : Field α) (depth : Nat) : Prop :=
  ∀ given a, field.Gets given a →
    if field.omitted a then field.absent = some a else field.codec.Keeps depth a

namespace Field

variable {name : String} {codec : Codec α} {depth : Nat}

theorem isFaithful_required (h : codec.IsFaithful depth) : (required name codec).IsFaithful depth := by
  intro given a hgets
  cases given with
  | none => cases hgets
  | some d => exact h d a hgets

theorem isFaithful_defaulted (h : codec.IsFaithful depth) {value : α}
    (hvalue : codec.Keeps depth value) : (defaulted name codec value).IsFaithful depth := by
  intro given a hgets
  cases given with
  | none =>
    obtain rfl := Option.some.inj hgets
    exact hvalue
  | some d => exact h d a hgets

theorem isFaithful_optional {codec : Codec (Option α)} (h : codec.IsFaithful depth) :
    (optional name codec).IsFaithful depth := by
  intro given a hgets
  cases a with
  | none => exact rfl
  | some a =>
    cases given with
    | none => cases hgets
    | some d => exact h d (some a) hgets

end Field

namespace Fields

variable {γ σ : Type}

/-- All fields are faithful. -/
def IsFaithful : {γ σ : Type} → Fields γ σ → Nat → Prop
  | _, _, .nil, _ => True
  | _, _, .cons field rest, depth => field.IsFaithful depth ∧ rest.IsFaithful depth

/-- Members are written for fields only, and in their order. -/
theorem sublist_names (fs : Fields γ σ) (values : γ) :
    ((fs.members values).map Prod.fst).Sublist fs.names := by
  induction fs with
  | nil => exact List.Sublist.slnil
  | cons field rest ih =>
    obtain ⟨a, values⟩ := values
    rw [members]
    split
    · exact (ih values).cons _
    · exact (ih values).cons_cons _

/-- What is written for the values is what the fields get them from. -/
theorem gets_members {fs : Fields γ σ} (hnames : fs.names.Nodup) {depth : Nat}
    (h : fs.IsFaithful depth) {given : String → Nat → Option Document} {values : γ}
    (hgets : fs.Gets given values) :
    fs.Gets (fun name _ => (fs.members values).lookup name) values := by
  induction fs generalizing given with
  | nil => trivial
  | cons field rest ih =>
    obtain ⟨hfresh, hnames⟩ := List.nodup_cons.mp hnames
    obtain ⟨a, values⟩ := values
    obtain ⟨hfield, hrest⟩ := h
    obtain ⟨hget, hgets⟩ := hgets
    have hwritten := hfield _ a hget
    have hgone : (rest.members values).lookup field.name = none := by
      rw [List.lookup_eq_none_iff]
      intro m hm
      have hmem : m.1 ∈ rest.names := (rest.sublist_names values).subset (List.mem_map_of_mem hm)
      rw [bne_iff_ne]
      rintro heq
      exact hfresh (heq ▸ hmem)
    have hothers {ms : List (String × Document)}
        (hms : ∀ name ∈ rest.names, ms.lookup name = (rest.members values).lookup name) :
        rest.Gets (fun name _ => ms.lookup name) values :=
      (ih hnames hrest hgets).congr fun name hname _ => (hms name hname).symm
    by_cases homitted : field.omitted a = true
    · rw [if_pos homitted] at hwritten
      have hmembers : (Fields.cons field rest).members (a, values) = rest.members values :=
        if_pos homitted
      rw [hmembers]
      refine ⟨?_, hothers fun _ _ => rfl⟩
      change field.Gets ((rest.members values).lookup field.name) a
      rw [hgone]
      exact hwritten
    · rw [if_neg homitted] at hwritten
      have hmembers : (Fields.cons field rest).members (a, values) =
          (field.name, field.codec.write a) :: rest.members values := if_neg homitted
      rw [hmembers]
      refine ⟨?_, hothers fun name hname => ?_⟩
      · change field.Gets (List.lookup field.name (_ :: _)) a
        rw [List.lookup_cons_self]
        exact hwritten.read_write
      · have hne : (name == field.name) = false := by
          rw [beq_eq_false_iff_ne]
          rintro rfl
          exact hfresh hname
        rw [List.lookup_cons, hne]

/-- What is written for the values is sound, and not nested too deeply. -/
theorem forall_mem_members {fs : Fields γ σ} {depth : Nat} (h : fs.IsFaithful depth)
    {given : String → Nat → Option Document} {values : γ} (hgets : fs.Gets given values) :
    ∀ m ∈ fs.members values, m.2.isSound = true ∧ m.2.depth ≤ depth := by
  induction fs generalizing given with
  | nil => exact fun m hm => absurd hm List.not_mem_nil
  | cons field rest ih =>
    obtain ⟨a, values⟩ := values
    have hwritten := h.1 _ a hgets.1
    have hothers := ih h.2 hgets.2
    rw [members]
    split
    · exact hothers
    · next homitted =>
      rw [if_neg homitted] at hwritten
      exact List.forall_mem_cons.mpr ⟨⟨hwritten.isSound, hwritten.depth_le⟩, hothers⟩

theorem given_record (ms : List (String × Document)) (name : String) (index : Nat) :
    (Document.record ms).given name index = ms.lookup name := by
  rw [Document.record, Document.given]
  induction ms with
  | nil => rfl
  | cons m ms ih =>
    rw [List.map_cons, List.lookup_cons, List.lookup_cons, ih]
    rfl

theorem isRecord_record {names : List String} {ms : List (String × Document)}
    (h : (ms.map Prod.fst).Nodup) : (Document.record ms).IsRecord names := by
  refine ⟨rfl, List.forall_mem_map.mpr fun m _ => rfl, fun name _ => ?_⟩
  have hnodup : ((ms.map fun m => (some m.1, m.2)).map Prod.fst).Nodup := by
    have hnames := h.map (Option.some_injective String)
    rwa [List.map_map] at hnames ⊢
  exact List.nodup_iff_count_le_one.mp hnodup (some name)

/-- **If its fields are faithful, so is the record.** -/
theorem isFaithful_codec {ρ : Type} {fs : Fields γ σ} (hnames : fs.names.Nodup) {depth : Nat}
    (h : fs.IsFaithful depth) {record : String} {make : γ → ρ} {parts : ρ → γ}
    (hparts : ∀ values, parts (make values) = values) :
    (fs.codec record make parts).IsFaithful (depth + 1) := by
  intro d r hr
  obtain ⟨-, values, hgets, rfl⟩ := (read_codec_eq_ok_iff hnames).mp hr
  have hwrite : (fs.codec record make parts).write (make values) =
      .record (fs.members values) := congrArg (fun v => Document.record (fs.members v)) (hparts values)
  have hmembers := forall_mem_members h hgets
  refine ⟨?_, ?_, ?_⟩
  · rw [hwrite]
    have hrecord : (Document.record (fs.members values)).IsRecord fs.names :=
      isRecord_record ((fs.sublist_names values).nodup hnames)
    refine (read_codec_eq_ok_iff hnames).mpr ⟨hrecord, values, ?_, rfl⟩
    exact (gets_members hnames h hgets).congr fun name _ index => (given_record _ name index).symm
  · rw [hwrite, Document.record, Document.isSound, Document.membersSound_eq_all]
    simpa using fun m hm => (hmembers m hm).1
  · rw [hwrite, Document.record, Document.depth]
    refine Nat.succ_le_succ (Document.membersDepth_le_iff.mpr ?_)
    exact List.forall_mem_map.mpr fun m hm => (hmembers m hm).2

end Fields

end Json

open Json

variable {depth : Nat}

/-! ## Criteria -/

theorem AttributeType.isFaithful_codec : AttributeType.codec.IsFaithful depth :=
  Codec.isFaithful_choice (by decide)

namespace Criteria

theorem Connective.isFaithful_codec : Connective.codec.IsFaithful depth :=
  Codec.isFaithful_choice (by decide)

theorem Kind.isFaithful_codec : Kind.codec.IsFaithful depth :=
  Codec.isFaithful_choice (by decide)

/-- An integer of 64 bits is within the format. -/
theorem isFinite_of_integerOfNumeral? {n : Numeral} {i : Int} (h : integerOfNumeral? n = some i) :
    (Binary64.ofNumeral n).isFinite = true := by
  unfold integerOfNumeral? at h
  split at h
  · next hplain =>
    obtain ⟨hfraction, hexponent⟩ := Bool.and_eq_true_iff.mp hplain
    refine Binary64.isFinite_ofNumeral (List.isEmpty_iff.mp hfraction)
      (Option.isNone_iff_eq_none.mp hexponent) ?_
    have hword : twoPow 63 = 2 ^ 63 := twoPow_eq 63
    have hlimit : twoPow 64 = 2 ^ 64 := twoPow_eq 64
    split at h
    · split at h
      · omega
      · cases h
    · split at h
      · assumption
      · cases h
  · cases h

/-- **A number is sound if it is finite**, whatever the reader makes of
its literal. -/
theorem isSound_number_iff [Rounding] {n : Numeral} :
    (Document.number n).isSound = true ↔ (realOfNumeral n).isFinite = true := by
  rw [Document.isSound, numberOfNumeral?, realOfNumeral]
  cases hinteger : integerOfNumeral? n with
  | some i => exact iff_of_true rfl (isFinite_of_integerOfNumeral? hinteger)
  | none =>
    simp only
    split
    · next hfinite => exact iff_of_true rfl hfinite
    · next hinfinite => exact iff_of_false Bool.false_ne_true hinfinite

/-- What a sound document holds is its value. -/
theorem Value.read_eq_ok {d : Document} {v : Value} (hsound : d.isSound = true)
    (hv : Value.ofDocument? d = some v) : Value.codec.read d = .ok v := by
  have hread : Value.codec.read d = Value.read d := rfl
  rw [hread, Value.read, if_pos hsound, hv]

/-- **A finite number is kept**, and so is any other scalar. -/
theorem keeps_value {v : Value} (h : ∀ x, v = .number x → x.isFinite = true) :
    Value.codec.Keeps depth v := by
  cases v with
  | boolean b => exact ⟨rfl, rfl, Nat.zero_le depth⟩
  | text s => exact ⟨rfl, rfl, Nat.zero_le depth⟩
  | number x =>
    cases x with
    | finite negative rank =>
      have hnumber := Binary64.ofNumeral_numeral .document negative rank
      have hsound : (Document.number (Spelling.document.numeral negative rank)).isSound = true :=
        isSound_number_iff.mpr (by rw [realOfNumeral_eq, hnumber]; rfl)
      have hvalue := congrArg (fun x => some (Value.number x)) ((realOfNumeral_eq _).trans hnumber)
      exact ⟨Value.read_eq_ok hsound hvalue, hsound, Nat.zero_le depth⟩
    | infinite negative => cases h _ rfl
    | nan => cases h _ rfl

theorem Value.isFaithful_codec : Value.codec.IsFaithful depth := by
  intro d v hv
  have hread : Value.codec.read d = Value.read d := rfl
  rw [hread, Value.read] at hv
  split at hv
  · next hsound =>
    refine keeps_value fun x hx => ?_
    subst hx
    split at hv
    · next hvalue =>
      obtain rfl := Except.ok.inj hv
      cases d with
      | number n =>
        obtain rfl := Value.number.inj (Option.some.inj hvalue)
        exact isSound_number_iff.mp hsound
      | string s => cases s <;> cases hvalue
      | _ => cases hvalue
    · cases hv
  · cases hv

/-- Every source is kept, whatever it was read from. -/
theorem keeps_source (source : Option FeatureTypeId) : sourceCodec.Keeps depth source := by
  cases source with
  | none => exact ⟨rfl, rfl, Nat.zero_le depth⟩
  | some n =>
    have hsound := Codec.isSound_ofInt n
    refine ⟨?_, hsound, Nat.zero_le depth⟩
    have hread : sourceCodec.read (sourceCodec.write (some n)) =
        if (Document.ofInt n.toInt).isSound then .ok (sourceOfDocument? (.ofInt n.toInt))
        else .error .malformed := rfl
    have hnumber : numberOfNumeral? ⟨decide (n.toInt < 0), n.toInt.natAbs, [], none⟩ =
        some (.integer n.toInt) := by
      rw [numberOfNumeral?, Codec.integerOfNumeral?_toInt]
    have hsource : sourceOfDocument? (.ofInt n.toInt) = some n := by
      rw [Document.ofInt, sourceOfDocument?, sourceOfNumeral?, hnumber]
      simp only [Codec.inWord_toInt, if_true, Int64.ofInt_toInt]
    rw [hread, if_pos hsound, hsource]

theorem Condition.isFaithful_codec : Condition.codec.IsFaithful (depth + 2) := by
  have htext : (Codec.option .text).IsFaithful (depth + 1) :=
    Codec.isFaithful_text.option fun _ h => by cases h
  have htype : (Codec.option AttributeType.codec).IsFaithful (depth + 1) :=
    AttributeType.isFaithful_codec.option fun _ h => by cases h
  have hvalue : (Codec.option Value.codec).IsFaithful depth :=
    Value.isFaithful_codec.option fun _ h => by cases h
  have hvalues : (Codec.option (.list (.option Value.codec))).IsFaithful (depth + 1) :=
    hvalue.list.option fun _ h => by cases h
  have hrelated : (Codec.option (.list .int64)).IsFaithful (depth + 1) :=
    Codec.isFaithful_int64.list.option fun _ h => by cases h
  unfold Condition.codec
  refine Fields.isFaithful_codec ?_ ?_ ?_
  · decide
  · exact ⟨Field.isFaithful_required Codec.isFaithful_text,
      Field.isFaithful_optional fun _ source _ => keeps_source source,
      Field.isFaithful_optional htext, Field.isFaithful_optional htype,
      Field.isFaithful_optional htext, Field.isFaithful_optional hvalues,
      Field.isFaithful_optional hrelated, trivial⟩
  · exact fun _ => rfl

theorem Group.isFaithful_codec : Group.codec.IsFaithful (depth + 4) := by
  have hconditions : (Codec.list Condition.codec).IsFaithful (depth + 3) :=
    Condition.isFaithful_codec.list
  unfold Group.codec
  refine Fields.isFaithful_codec ?_ ?_ ?_
  · decide
  · exact ⟨Field.isFaithful_required Codec.isFaithful_text,
      Field.isFaithful_defaulted Connective.isFaithful_codec ⟨rfl, rfl, Nat.zero_le _⟩,
      Field.isFaithful_defaulted hconditions ⟨rfl, rfl, Nat.le_add_left 1 _⟩, trivial⟩
  · exact fun _ => rfl

theorem Tree.isFaithful_codec : Tree.codec.IsFaithful (depth + 6) := by
  have hgroups : (Codec.option (.list Group.codec)).IsFaithful (depth + 5) :=
    Group.isFaithful_codec.list.option fun _ h => by cases h
  unfold Tree.codec
  refine Fields.isFaithful_codec ?_ ?_ ?_
  · decide
  · exact ⟨Field.isFaithful_defaulted Kind.isFaithful_codec ⟨rfl, rfl, Nat.zero_le _⟩,
      Field.isFaithful_defaulted Connective.isFaithful_codec ⟨rfl, rfl, Nat.zero_le _⟩,
      Field.isFaithful_optional hgroups, trivial⟩
  · exact fun _ => rfl

theorem Test.isFaithful_codec : Test.codec.IsFaithful (depth + 2) := by
  have hvalue : (Codec.option Value.codec).IsFaithful depth :=
    Value.isFaithful_codec.option fun _ h => by cases h
  have htype : (Codec.option AttributeType.codec).IsFaithful (depth + 1) :=
    AttributeType.isFaithful_codec.option fun _ h => by cases h
  unfold Test.codec
  refine Fields.isFaithful_codec ?_ ?_ ?_
  · decide
  · exact ⟨Field.isFaithful_required Codec.isFaithful_text,
      Field.isFaithful_required Codec.isFaithful_int64,
      Field.isFaithful_required Codec.isFaithful_text,
      Field.isFaithful_required Codec.isFaithful_text,
      Field.isFaithful_defaulted hvalue.list ⟨rfl, rfl, Nat.le_add_left 1 _⟩,
      Field.isFaithful_optional htype, trivial⟩
  · exact fun _ => rfl

end Criteria

namespace Relations

theorem Fragment.isFaithful_codec : Fragment.codec.IsFaithful (depth + 1) := by
  have htext : (Codec.option .text).IsFaithful depth :=
    Codec.isFaithful_text.option fun _ h => by cases h
  have htype : (Codec.option .int64).IsFaithful depth :=
    Codec.isFaithful_int64.option fun _ h => by cases h
  unfold Fragment.codec
  refine Fields.isFaithful_codec ?_ ?_ ?_
  · decide
  · exact ⟨Field.isFaithful_required Codec.isFaithful_text, Field.isFaithful_optional htext,
      Field.isFaithful_required Codec.isFaithful_int64, Field.isFaithful_optional htype,
      Field.isFaithful_optional htext, trivial⟩
  · exact fun _ => rfl

theorem Layer.isFaithful_codec : Layer.codec.IsFaithful (depth + 1) := by
  unfold Layer.codec
  refine Fields.isFaithful_codec ?_ ?_ ?_
  · decide
  · exact ⟨Field.isFaithful_required Codec.isFaithful_int64,
      Field.isFaithful_required Codec.isFaithful_text, trivial⟩
  · exact fun _ => rfl

theorem Entry.isFaithful_codec : Entry.codec.IsFaithful (depth + 2) := by
  have hrelated : (Codec.option (.list .int64)).IsFaithful (depth + 1) :=
    Codec.isFaithful_int64.list.option fun _ h => by cases h
  unfold Entry.codec
  refine Fields.isFaithful_codec ?_ ?_ ?_
  · decide
  · exact ⟨Field.isFaithful_required Codec.isFaithful_int64,
      Field.isFaithful_required Codec.isFaithful_text, Field.isFaithful_optional hrelated, trivial⟩
  · exact fun _ => rfl

end Relations

/-! ## The round trips -/

section

open Criteria Relations

/-- **Criteria come back from their texts**, from the whole tree down to
a single value, and so do the types that are exchanged around them. -/
theorem roundTrips_codecs :
    Tree.codec.RoundTrips ∧ Group.codec.RoundTrips ∧ Condition.codec.RoundTrips ∧
      Test.codec.RoundTrips ∧ Fragment.codec.RoundTrips ∧ Layer.codec.RoundTrips ∧
      Entry.codec.RoundTrips ∧ Value.codec.RoundTrips := by
  have htree : Tree.codec.IsFaithful 6 := Tree.isFaithful_codec
  have hgroup : Group.codec.IsFaithful 4 := Group.isFaithful_codec
  have hcondition : Condition.codec.IsFaithful 2 := Condition.isFaithful_codec
  have htest : Test.codec.IsFaithful 2 := Test.isFaithful_codec
  have hfragment : Fragment.codec.IsFaithful 1 := Fragment.isFaithful_codec
  have hlayer : Layer.codec.IsFaithful 1 := Layer.isFaithful_codec
  have hentry : Entry.codec.IsFaithful 2 := Entry.isFaithful_codec
  have hvalue : Value.codec.IsFaithful 0 := Value.isFaithful_codec
  exact ⟨htree.roundTrips (by decide), hgroup.roundTrips (by decide),
    hcondition.roundTrips (by decide), htest.roundTrips (by decide),
    hfragment.roundTrips (by decide), hlayer.roundTrips (by decide),
    hentry.roundTrips (by decide), hvalue.roundTrips (by decide)⟩

/-- A tree whose conditions differ in little: values unset or empty, text
and scalars that look alike, and the ends of the signed word. -/
def mixedText : String :=
  "\x7b\"groups\":[[\"g\",\"OR\",[" ++
    "\x7b\"source\":-9223372036854775808,\"id\":\"\\u00e9\\ud83d\\ude00\",\"value\":null\x7d," ++
    "\x7b\"id\":\"\",\"value\":[],\"relatedTo\":[]\x7d," ++
    "\x7b\"id\":\"1\",\"value\":[null,\"1\",1,\"true\",true,-0.0]," ++
    "\"relatedTo\":[9223372036854775807]\x7d]]]\x7d"

/-- What it is read as. -/
def mixedTree : Tree :=
  let one := Binary64.ofNumeral ⟨false, 1, [], none⟩
  let minusZero := Binary64.ofNumeral ⟨true, 0, [], none⟩
  let alike : List (Option Value) :=
    [none, some (.text "1"), some (.number one), some (.text "true"), some (.boolean true),
      some (.number minusZero)]
  ⟨.simple, .and, some [⟨"g", .or,
    [⟨"é😀", some (-9223372036854775808), none, none, none, none, none⟩,
      ⟨"", none, none, none, none, some [], some []⟩,
      ⟨"1", none, none, none, none, some alike, some [9223372036854775807]⟩]⟩]⟩

theorem mixedText_roundTrips :
    Tree.codec.ofText mixedText = .ok mixedTree ∧
      Tree.codec.ofText (Tree.codec.toText mixedTree) = .ok mixedTree := by
  have hread : Tree.codec.ofText mixedText = .ok mixedTree := by decide +kernel
  exact ⟨hread, roundTrips_codecs.1 mixedText mixedTree hread⟩

end

end LayerQuery
