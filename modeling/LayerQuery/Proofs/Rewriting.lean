import LayerQuery.Proofs.Presentation
import LayerQuery.Proofs.Reading
import Mathlib.Logic.Relation
/-!
# Trees are read alike however they are written

The text of a tree can be rewritten at the tree itself, at any of its
groups and at any condition of these. As long as every step restates the
record that it is made at (`Restated`), the tree that is read stays the
same, after any number of steps (`Tree.ofText_eq_of_rewritten`).

That comes down to one step inside one record. What a step leaves of a
condition is what it leaves of the list of conditions, so of the group,
and so of the tree (`Group.carries_criteria`, `Tree.carries_groups`).
-/

namespace LayerQuery

open Json Document Relation

namespace Criteria

/-! ## The forms of trees, groups and conditions -/

/-- What is not set may be null. -/
def Condition.form : RecordForm :=
  [("id", none), ("source", some .null), ("attribute", some .null), ("attributeType", some .null),
    ("condition", some .null), ("value", some .null), ("relatedTo", some .null)]

/-- The connective may be left out, and so may an empty list of conditions. -/
def Group.form : RecordForm :=
  [("id", none), ("operator", some (.ofText "AND")), ("criteria", some (.list []))]

/-- All fields may be left out. -/
def Tree.form : RecordForm :=
  [("type", some (.ofText "simple")), ("operator", some (.ofText "AND")), ("groups", some .null)]

theorem Condition.nodup_form : (Condition.form.map Prod.fst).Nodup := by
  decide

theorem Group.nodup_form : (Group.form.map Prod.fst).Nodup := by
  decide

theorem Tree.nodup_form : (Tree.form.map Prod.fst).Nodup := by
  decide

/-- A change at the group of an index. -/
abbrev InGroup (i : Nat) (R : Document → Document → Prop) : Document → Document → Prop :=
  AtField Tree.form "groups" (AtItem i R)

/-- A change at the condition of an index in the group of an index. -/
abbrev InCondition (i j : Nat) (R : Document → Document → Prop) : Document → Document → Prop :=
  InGroup i (AtField Group.form "criteria" (AtItem j R))

/-- One step: the tree is restated, or one of its groups or conditions is. -/
inductive Rewritten : Document → Document → Prop
  | tree {d d' : Document} (h : Restated Tree.form d d') : Rewritten d d'
  | group {d d' : Document} (i : Nat) (h : InGroup i (Restated Group.form) d d') : Rewritten d d'
  | condition {d d' : Document} (i j : Nat) (h : InCondition i j (Restated Condition.form) d d') :
    Rewritten d d'

section

variable [Rounding] {depth i j : Nat} {R : Document → Document → Prop} {d : Document}

/-! ## What is read -/

theorem Condition.read_within_eq_ok_iff {c : Condition} :
    Condition.codec.read (d.within (depth + 1)) = .ok c ↔
      d.IsRecord (Condition.form.map Prod.fst) ∧
        (Field.required "id" .text).Gets ((d.given "id" 0).map (·.within depth)) c.id ∧
        (Field.optional "source" sourceCodec).Gets ((d.given "source" 1).map (·.within depth))
          c.source ∧
        (Field.optional "attribute" (.option .text)).Gets
          ((d.given "attribute" 2).map (·.within depth)) c.attributeName ∧
        (Field.optional "attributeType" (.option AttributeType.codec)).Gets
          ((d.given "attributeType" 3).map (·.within depth)) c.attributeType ∧
        (Field.optional "condition" (.option .text)).Gets
          ((d.given "condition" 4).map (·.within depth)) c.operator ∧
        (Field.optional "value" (.option (.list (.option Value.codec)))).Gets
          ((d.given "value" 5).map (·.within depth)) c.values ∧
        (Field.optional "relatedTo" (.option (.list .int64))).Gets
          ((d.given "relatedTo" 6).map (·.within depth)) c.relatedTo := by
  unfold Condition.codec
  refine (Fields.read_within_eq_ok_iff ?_).trans (and_congr_right fun _ => ⟨?_, ?_⟩)
  · exact Condition.nodup_form
  · rintro ⟨_, ⟨hid, hsource, hname, htype, hoperator, hvalues, hrelated, -⟩, rfl⟩
    exact ⟨hid, hsource, hname, htype, hoperator, hvalues, hrelated⟩
  · rintro ⟨hid, hsource, hname, htype, hoperator, hvalues, hrelated⟩
    exact ⟨⟨c.id, c.source, c.attributeName, c.attributeType, c.operator, c.values, c.relatedTo, ()⟩,
      ⟨hid, hsource, hname, htype, hoperator, hvalues, hrelated, trivial⟩, rfl⟩

theorem Group.read_within_eq_ok_iff {g : Group} :
    Group.codec.read (d.within (depth + 1)) = .ok g ↔
      d.IsRecord (Group.form.map Prod.fst) ∧
        (Field.required "id" .text).Gets ((d.given "id" 0).map (·.within depth)) g.id ∧
        (Field.defaulted "operator" Connective.codec .and).Gets
          ((d.given "operator" 1).map (·.within depth)) g.connective ∧
        (Field.defaulted "criteria" (.list Condition.codec) []).Gets
          ((d.given "criteria" 2).map (·.within depth)) g.conditions := by
  unfold Group.codec
  refine (Fields.read_within_eq_ok_iff ?_).trans (and_congr_right fun _ => ⟨?_, ?_⟩)
  · exact Group.nodup_form
  · rintro ⟨_, ⟨hid, hconnective, hconditions, -⟩, rfl⟩
    exact ⟨hid, hconnective, hconditions⟩
  · rintro ⟨hid, hconnective, hconditions⟩
    exact ⟨⟨g.id, g.connective, g.conditions, ()⟩, ⟨hid, hconnective, hconditions, trivial⟩, rfl⟩

theorem Tree.read_within_eq_ok_iff {t : Tree} :
    Tree.codec.read (d.within (depth + 1)) = .ok t ↔
      d.IsRecord (Tree.form.map Prod.fst) ∧
        (Field.defaulted "type" Kind.codec .simple).Gets
          ((d.given "type" 0).map (·.within depth)) t.kind ∧
        (Field.defaulted "operator" Connective.codec .and).Gets
          ((d.given "operator" 1).map (·.within depth)) t.connective ∧
        (Field.optional "groups" (.option (.list Group.codec))).Gets
          ((d.given "groups" 2).map (·.within depth)) t.groups := by
  unfold Tree.codec
  refine (Fields.read_within_eq_ok_iff ?_).trans (and_congr_right fun _ => ⟨?_, ?_⟩)
  · exact Tree.nodup_form
  · rintro ⟨_, ⟨hkind, hconnective, hgroups, -⟩, rfl⟩
    exact ⟨hkind, hconnective, hgroups⟩
  · rintro ⟨hkind, hconnective, hgroups⟩
    exact ⟨⟨t.kind, t.connective, t.groups, ()⟩, ⟨hkind, hconnective, hgroups, trivial⟩, rfl⟩

/-! ## One step -/

theorem Condition.carries_restated :
    Condition.codec.Carries (depth + 1) (Restated Condition.form) Eq := by
  unfold Condition.codec
  refine Fields.carries_restated Condition.nodup_form ?_
  exact .cons Field.hasStandIn_none <| .cons (Field.hasStandIn_optional rfl) <|
    .cons (Field.hasStandIn_optional rfl) <| .cons (Field.hasStandIn_optional rfl) <|
    .cons (Field.hasStandIn_optional rfl) <| .cons (Field.hasStandIn_optional rfl) <|
    .cons (Field.hasStandIn_optional rfl) rfl

/-- The stand-in for a connective. -/
theorem Connective.read_word (c : Connective) :
    Connective.codec.read ((Document.ofText c.word).within depth) = .ok c := by
  rw [within_ofText]
  cases c <;> rfl

theorem Group.carries_restated : Group.codec.Carries (depth + 2) (Restated Group.form) Eq := by
  have hempty : (Codec.list Condition.codec).read ((Document.list []).within (depth + 1)) =
      .ok [] := by
    rw [within_list]
    rfl
  unfold Group.codec
  refine Fields.carries_restated Group.nodup_form ?_
  exact .cons Field.hasStandIn_none <|
    .cons (Field.hasStandIn_defaulted (Connective.read_word .and)) <|
    .cons (Field.hasStandIn_defaulted hempty) rfl

theorem Tree.carries_restated : Tree.codec.Carries (depth + 1) (Restated Tree.form) Eq := by
  have hkind : Kind.codec.read ((Document.ofText "simple").within depth) = .ok .simple := by
    rw [within_ofText]
    rfl
  unfold Tree.codec
  refine Fields.carries_restated Tree.nodup_form ?_
  exact .cons (Field.hasStandIn_defaulted hkind) <|
    .cons (Field.hasStandIn_defaulted (Connective.read_word .and)) <|
    .cons (Field.hasStandIn_optional rfl) rfl

/-! ## A change inside a tree -/

/-- What becomes of one condition becomes of the conditions of its group. -/
theorem Group.carries_criteria {P : Condition → Condition → Prop}
    (h : Condition.codec.Carries depth R P) :
    Group.codec.Carries (depth + 2) (AtField Group.form "criteria" (AtItem j R)) fun g g' =>
      ∃ cs, g' = { g with conditions := cs } ∧ AtIndex j P g.conditions cs := by
  intro d d' g hd hg
  obtain ⟨hrecord, hid, hconnective, hconditions⟩ := Group.read_within_eq_ok_iff.mp hg
  obtain ⟨conditions', hconditions', hat⟩ :=
    hd.exists_gets Group.nodup_form hrecord rfl (h.list j) hconditions
  refine ⟨{ g with conditions := conditions' }, Group.read_within_eq_ok_iff.mpr
    ⟨hd.isRecord hrecord, ?_, ?_, hconditions'⟩, conditions', rfl, hat⟩
  · exact hid.of_eq (hd.given_of_ne rfl (by decide))
  · exact hconnective.of_eq (hd.given_of_ne rfl (by decide))

/-- What becomes of one group becomes of the groups of its tree. -/
theorem Tree.carries_groups {P : Group → Group → Prop} (h : Group.codec.Carries depth R P) :
    Tree.codec.Carries (depth + 2) (AtField Tree.form "groups" (AtItem i R)) fun t t' =>
      ∃ gs gs', t.groups = some gs ∧ t' = { t with groups := some gs' } ∧ AtIndex i P gs gs' := by
  intro d d' t hd ht
  obtain ⟨hrecord, hkind, hconnective, hgroups⟩ := Tree.read_within_eq_ok_iff.mp ht
  obtain ⟨groups', hgroups', gs, gs', hgs, rfl, hat⟩ :=
    hd.exists_gets Tree.nodup_form hrecord rfl (h.option_list i) hgroups
  refine ⟨{ t with groups := some gs' }, Tree.read_within_eq_ok_iff.mpr
    ⟨hd.isRecord hrecord, ?_, ?_, hgroups'⟩, gs, gs', hgs, rfl, hat⟩
  · exact hkind.of_eq (hd.given_of_ne rfl (by decide))
  · exact hconnective.of_eq (hd.given_of_ne rfl (by decide))

/-! ## Any number of steps -/

/-- What leaves the condition leaves the group that it is in. -/
theorem Group.carries_criteria_eq (h : Condition.codec.Carries depth R Eq) :
    Group.codec.Carries (depth + 2) (AtField Group.form "criteria" (AtItem j R)) Eq := by
  intro d d' g hd hg
  obtain ⟨_, hg', cs, rfl, hat⟩ := Group.carries_criteria h d d' g hd hg
  refine ⟨_, hg', ?_⟩
  rw [hat.eq]

/-- What leaves the group leaves the tree that it is in. -/
theorem Tree.carries_groups_eq (h : Group.codec.Carries depth R Eq) :
    Tree.codec.Carries (depth + 2) (InGroup i R) Eq := by
  intro d d' t hd ht
  obtain ⟨_, ht', gs, gs', hgs, rfl, hat⟩ := Tree.carries_groups h d d' t hd ht
  refine ⟨_, ht', ?_⟩
  rw [hat.eq, ← hgs]

/-- A step leaves the tree that is read. -/
theorem Tree.carries_rewritten : Tree.codec.Carries (depth + 5) Rewritten Eq := by
  intro d d' t h ht
  cases h with
  | tree h => exact Tree.carries_restated d d' t h ht
  | group i h => exact Tree.carries_groups_eq Group.carries_restated d d' t h ht
  | condition i j h =>
    have hcondition : Condition.codec.Carries (depth + 1) (Restated Condition.form) Eq :=
      Condition.carries_restated
    exact Tree.carries_groups_eq (Group.carries_criteria_eq hcondition) d d' t h ht

/-- **A tree is read alike however it is written.** Every text that says
what the text of the tree says, rewritten step by step, is read as the
same tree. -/
theorem Tree.ofText_eq_of_rewritten {text : String} {t : Tree}
    (h : Tree.codec.ofText text = .ok t) :
    ∃ d, d.IsTextOf text ∧ ∀ d' text', ReflTransGen Rewritten d d' → d'.IsTextOf text' →
      Tree.codec.ofText text' = .ok t := by
  obtain ⟨d, hd, ht⟩ := Codec.ofText_eq_ok_iff.mp h
  refine ⟨d, read_eq_iff_isTextOf.mp hd, fun d' text' hsteps hd' => ?_⟩
  refine Codec.ofText_eq_ok_iff.mpr ⟨d', read_eq_iff_isTextOf.mpr hd', ?_⟩
  clear hd'
  induction hsteps with
  | refl => exact ht
  | tail _ hstep ih =>
    have hcarries : Tree.codec.Carries depthLimit Rewritten Eq := Tree.carries_rewritten
    obtain ⟨_, ht', rfl⟩ := hcarries _ _ t hstep ih
    exact ht'

end

/-- A condition in either order of its members. -/
def thinCondition (ordered : Bool) : Document :=
  let id : Member := (some "id", .ofText "c")
  let source : Member := (some "source", .ofInt 3)
  .object (if ordered then [id, source] else [source, id]) true

/-- A group that leaves out the connective, and the list of all its fields. -/
def thinGroup (listed : Bool) (condition : Document) : Document :=
  if listed then .list [.ofText "g", .ofText "AND", .list [condition]]
  else .object [(some "criteria", .list [condition]), (some "id", .ofText "g")] true

/-- A tree with a note that nobody reads, or without. -/
def thinTree (noted : Bool) (group : Document) : Document :=
  let notes : List Member := if noted then [(some "note", .list [.null])] else []
  .object (notes ++ [(some "groups", .list [group])]) true

theorem reflTransGen_rewritten_thin : ReflTransGen Rewritten
    (thinTree false (thinGroup false (thinCondition false)))
    (thinTree true (thinGroup true (thinCondition true))) := by
  let note : Member := (some "note", .list [.null])
  have hnoted (group : Document) : Rewritten (thinTree false group) (thinTree true group) := by
    refine .tree (@Restated.inserted _ [] _ "note" _ (.inl ?_))
    decide
  have hordered : Rewritten (thinTree true (thinGroup false (thinCondition false)))
      (thinTree true (thinGroup false (thinCondition true))) := by
    refine .condition 0 0 (@AtField.member _ _ _ [note] [] _ _ ⟨.mk [] [] rfl ?_⟩)
    refine @AtField.member _ _ _ [] _ _ _ ⟨.mk [] [] rfl ?_⟩
    exact .permuted (List.Perm.swap _ _ _)
  have hlisted (condition : Document) : Rewritten (thinTree true (thinGroup false condition))
      (thinTree true (thinGroup true condition)) := by
    refine .group 0 (@AtField.member _ _ _ [note] [] _ _ ⟨.mk [] [] rfl ?_⟩)
    exact .listed (.cons rfl (.cons rfl (.cons rfl .nil)))
  exact .head (hnoted _) (.head hordered (.single (hlisted _)))

/-- The text with the fewest words. -/
def thinText : String :=
  "\x7b\"groups\":[\x7b\"criteria\":[\x7b\"source\":3,\"id\":\"c\"\x7d],\"id\":\"g\"\x7d]\x7d"

/-- The text with a note, the group as a list and the condition in order. -/
def fullText : String :=
  "\x7b\"note\":[null],\"groups\":[[\"g\",\"AND\",[\x7b\"id\":\"c\",\"source\":3\x7d]]]\x7d"

/-- What both say. -/
def plainTree : Tree :=
  ⟨.simple, .and, some [⟨"g", .and, [⟨"c", some 3, none, none, none, none, none⟩]⟩]⟩

theorem ofText_thinText_and_fullText :
    Tree.codec.ofText thinText = .ok plainTree ∧ Tree.codec.ofText fullText = .ok plainTree := by
  have hthin : (thinTree false (thinGroup false (thinCondition false))).text = thinText := by
    decide +kernel
  have hfull : (thinTree true (thinGroup true (thinCondition true))).text = fullText := by
    decide +kernel
  have hread : Tree.codec.ofText thinText = .ok plainTree := by decide +kernel
  refine ⟨hread, ?_⟩
  obtain ⟨d, hd, hrewritten⟩ := Tree.ofText_eq_of_rewritten hread
  have hsame : read thinText = ⟨thinTree false (thinGroup false (thinCondition false)), true⟩ :=
    hthin ▸ read_text (by decide)
  obtain ⟨rfl, -⟩ := Reading.mk.inj ((read_eq_iff_isTextOf.mpr hd).symm.trans hsame)
  exact hrewritten _ fullText reflTransGen_rewritten_thin (hfull ▸ isTextOf_text (by decide))

end Criteria

end LayerQuery
