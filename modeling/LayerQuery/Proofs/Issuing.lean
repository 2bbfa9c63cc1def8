import LayerQuery.Draft.Basic
import LayerQuery.Proofs.Lists
import LayerQuery.Proofs.Numerals
import Mathlib.Data.List.Nodup
/-!
# No id is given out twice

Whatever a draft makes takes its id from one counter, and stems are free:
a stem may end in a number, hold hyphens or be empty, and then looks like
an id itself. An id can be taken apart all the same, for a number has no
hyphen (`idOf_injective`). Each step on a draft takes one word of the
counter or none (`Step.run_eq`), so the ids of a run are its stems with
the words in their order (`issued_eq`), and two of them are the same only
where the counter has gone through all its words in between
(`eq_iff_of_getElem?_issued`).
-/

namespace LayerQuery

open Criteria

namespace Draft

namespace IdSource

/-! ## Ids come apart -/

/-- A stem with a word of the counter behind it. -/
def idOf (stem : String) (word : UInt64) : String :=
  stem ++ "-" ++ Nat.repr word.toNat

theorem issue_eq (s : IdSource) (stem : String) :
    s.issue stem = (idOf stem s.next, ⟨s.next + 1⟩) := rfl

theorem hyphen_not_mem_repr (n : Nat) : '-' ∉ (Nat.repr n).toList := fun h =>
  absurd (isDigit_of_mem_repr h) (by decide)

/-- **An id determines its stem and its number.** The number ends at the
last hyphen, wherever else the stem has one. -/
theorem idOf_injective {stem stem' : String} {word word' : UInt64}
    (h : idOf stem word = idOf stem' word') : stem = stem' ∧ word = word' := by
  have hlist := congrArg (fun id => id.toList.reverse) h
  simp only [idOf, String.toList_append, List.reverse_append] at hlist
  obtain ⟨hnumber, hstem⟩ := eq_and_eq_of_append_cons_of_not_mem
    (fun hmem => hyphen_not_mem_repr _ (List.mem_reverse.mp hmem))
    (fun hmem => hyphen_not_mem_repr _ (List.mem_reverse.mp hmem)) hlist
  have hword : word.toNat = word'.toNat :=
    Nat.repr_injective (String.toList_inj.mp (List.reverse_inj.mp hnumber))
  exact ⟨String.toList_inj.mp (List.reverse_inj.mp hstem), UInt64.toNat_inj.mp hword⟩

/-- The ids for stems, one after the other. -/
def issueAll (s : IdSource) : List String → List String
  | [] => []
  | stem :: stems => (s.issue stem).1 :: (s.issue stem).2.issueAll stems

/-- The words of the counter come in their order. -/
theorem getElem?_issueAll (s : IdSource) (stems : List String) (i : Nat) :
    (s.issueAll stems)[i]? = stems[i]?.map fun stem => idOf stem (s.next + UInt64.ofNat i) := by
  induction stems generalizing s i with
  | nil => rfl
  | cons stem stems ih =>
    rw [issueAll, issue_eq]
    cases i with
    | zero =>
      rw [List.getElem?_cons_zero, List.getElem?_cons_zero, Option.map_some]
      exact congrArg (fun word => some (idOf stem word)) (UInt64.add_zero s.next).symm
    | succ i =>
      -- the rest counts from the next word on
      rw [List.getElem?_cons_succ, List.getElem?_cons_succ, ih, UInt64.ofNat_add,
        UInt64.add_comm (UInt64.ofNat i), ← UInt64.add_assoc]
      rfl

end IdSource

/-! ## Steps on a draft -/

/-- What a user does with a draft. -/
inductive Step where
  /-- An id with any stem is asked for. -/
  | newId (stem : String)
  | addCondition
  | addGroup (indices : List Nat) (connective : Connective)
  | setField (index : Nat) (field : ConditionField) (donor : Condition)
  | setTree (kind : Kind) (indices : List Nat) (connective : Connective)

namespace Step

/-- The id of what a step makes, if it makes something with an id, and
the draft after it. -/
def run (d : Draft) : Step → Option String × Draft
  | .newId stem => (some (d.newId stem).1, (d.newId stem).2)
  | .addCondition => (some d.addCondition.1.id, d.addCondition.2)
  | .addGroup indices connective =>
    (some (d.addGroup indices connective).1.id, (d.addGroup indices connective).2)
  | .setField index field donor => (none, ((d.setField index field donor).map Prod.snd).getD d)
  | .setTree kind indices connective => (none, (d.setTree kind indices connective).2)

/-- The stem of the id that a step takes. -/
def stem? : Step → Option String
  | .newId stem => some stem
  | .addCondition => some IdSource.conditionStem
  | .addGroup _ _ => some IdSource.groupStem
  | .setField _ _ _ | .setTree _ _ _ => none

/-- **A step takes one id from the source or leaves it alone.** -/
theorem run_eq (d : Draft) (step : Step) :
    (step.run d).1 = step.stem?.map (fun stem => (d.ids.issue stem).1) ∧
      (step.run d).2.ids = (step.stem?.map fun stem => (d.ids.issue stem).2).getD d.ids := by
  cases step with
  | newId | addCondition | addGroup | setTree => exact ⟨rfl, rfl⟩
  | setField index field donor =>
    refine ⟨rfl, ?_⟩
    simp only [run, Draft.setField, stem?]
    cases d.conditions[index]? <;> rfl

end Step

/-- The ids that a run of steps gives out, in their order. -/
def issued (d : Draft) : List Step → List String
  | [] => []
  | step :: steps => (step.run d).1.toList ++ issued (step.run d).2 steps

/-- The stems of the ids that a run of steps takes. -/
def stems (steps : List Step) : List String :=
  steps.filterMap Step.stem?

/-- **A run gives out the ids for its stems**, in their order and with
nothing in between. -/
theorem issued_eq (d : Draft) (steps : List Step) :
    issued d steps = d.ids.issueAll (stems steps) := by
  induction steps generalizing d with
  | nil => rfl
  | cons step steps ih =>
    obtain ⟨hid, hids⟩ := step.run_eq d
    rw [issued, ih, hid, hids]
    simp only [stems, List.filterMap_cons]
    cases step.stem? with
    | none => rfl
    | some stem => rfl

/-! ## Ids of a run -/

section Run

variable {d : Draft} {steps : List Step}

/-- **Two ids of a run are the same** exactly when they have one stem and
the counter has gone round between them. -/
theorem eq_iff_of_getElem?_issued {i j : Nat} {id id' : String}
    (hi : (issued d steps)[i]? = some id) (hj : (issued d steps)[j]? = some id') :
    id = id' ↔ (stems steps)[i]? = (stems steps)[j]? ∧ i % twoPow 64 = j % twoPow 64 := by
  rw [issued_eq, IdSource.getElem?_issueAll] at hi hj
  obtain ⟨stem, hstem, rfl⟩ := Option.map_eq_some_iff.mp hi
  obtain ⟨stem', hstem', rfl⟩ := Option.map_eq_some_iff.mp hj
  have hword : d.ids.next + UInt64.ofNat i = d.ids.next + UInt64.ofNat j ↔
      i % twoPow 64 = j % twoPow 64 := by
    rw [UInt64.add_right_inj, UInt64.ofNat_eq_iff_mod_eq_toNat, UInt64.toNat_ofNat']
    exact Iff.rfl
  rw [hstem, hstem', Option.some.injEq, ← hword]
  constructor
  · exact IdSource.idOf_injective
  · rintro ⟨rfl, hnext⟩
    rw [hnext]

/-- **No id is given out twice** before the counter has gone through all
its words: whatever the stems are, and whether conditions, groups or
neither get the ids. -/
theorem nodup_issued (h : (issued d steps).length ≤ twoPow 64) : (issued d steps).Nodup := by
  rw [List.nodup_iff_getElem?_ne_getElem?]
  intro i j hij hj heq
  have hid := List.getElem?_eq_getElem hj
  -- the counter cannot have gone round between two ids of so short a run
  obtain ⟨-, hmod⟩ := (eq_iff_of_getElem?_issued (heq.trans hid) hid).mp rfl
  rw [Nat.mod_eq_of_lt (by omega), Nat.mod_eq_of_lt (by omega)] at hmod
  omega

end Run

/-- Stems that look like ids, among conditions and groups. -/
def lookalikes : List Step :=
  [.newId "a", .newId "a-0", .addCondition, .newId "criteria-group", .addGroup [0] .or,
    .setField 0 .attributeName { id := "", attributeName := some "height" }, .newId ""]

theorem lookalikes_nodup :
    issued .empty lookalikes =
        ["a-0", "a-0-1", "criteria-2", "criteria-group-3", "criteria-group-4", "-5"] ∧
      (issued .empty lookalikes).length ≤ twoPow 64 ∧ (issued .empty lookalikes).Nodup := by
  have hids : issued .empty lookalikes =
      ["a-0", "a-0-1", "criteria-2", "criteria-group-3", "criteria-group-4", "-5"] := by
    decide +kernel
  have hlength : (issued .empty lookalikes).length ≤ twoPow 64 := by
    rw [hids]
    decide
  exact ⟨hids, hlength, nodup_issued hlength⟩

end Draft

end LayerQuery
