import LayerQuery.Proofs.Numerals
import LayerQuery.Proofs.Outcome
import LayerQuery.Proofs.Query
import LayerQuery.Proofs.Trimming
/-!
# Which tests share an id

The id of a test is its source, its attribute and the token of its
operator, with underscores between them. A source has no underscore, so
it is found again at the first one (`Test.idOf_eq_idOf_iff`). Attributes
have underscores as they like, and so have five tokens. Of these, only
those that deny with `not` are another token behind an underscore
(`eq_not_of_append_mem_tokens`), and there the two can be taken for one
another: the `not` belongs to the token of one test, or to the attribute
of the other (`Test.SharesNot`). Tests that differ share an id in that
case and in no other (`Condition.id_eq_iff`).
-/

namespace LayerQuery

open Criteria Sql

/-! ## Tokens with an underscore -/

namespace Sql.Operator

theorem isSolid_of_mem_tokens {o : Operator} {token : String} (h : token ∈ o.tokens) :
    Text.IsSolid token.toList := by
  have hall : (all.flatMap tokens).all (·.toList.all (!Text.isBlank ·)) = true := by
    decide +kernel
  intro c hc
  have hsolid := List.all_eq_true.mp hall token (List.mem_flatMap.mpr ⟨o, o.mem_all, h⟩)
  simpa using List.all_eq_true.mp hsolid c hc

/-- A token that is another token behind an underscore denies it. -/
theorem eq_not_of_append_mem_tokens {o o' : Operator} {front token : String}
    (h : front ++ "_" ++ token ∈ o.tokens) (h' : token ∈ o'.tokens) :
    front = "not" ∧ token ∈ ["like", "in", "null"] := by
  have hall : ∀ long ∈ all.flatMap tokens, ∀ token ∈ all.flatMap tokens,
      ("_" ++ token).toList.isSuffixOf long.toList = true →
        long = "not" ++ ("_" ++ token) ∧ token ∈ ["like", "in", "null"] := by
    decide +kernel
  rw [String.append_assoc] at h
  have hsuffix : ("_" ++ token).toList.isSuffixOf (front ++ ("_" ++ token)).toList = true := by
    rw [List.isSuffixOf_iff_suffix, String.toList_append (s := front)]
    exact List.suffix_append _ _
  obtain ⟨hlong, hdenied⟩ := hall _ (List.mem_flatMap.mpr ⟨o, o.mem_all, h⟩) token
    (List.mem_flatMap.mpr ⟨o', o'.mem_all, h'⟩) hsuffix
  exact ⟨(String.append_left_inj _).mp hlong, hdenied⟩

/-- So it is with the tokens as they are given. -/
theorem keyword_eq_not {o o' : Operator} {front token : String}
    (h : Text.keyword (front ++ "_" ++ token) ∈ o.tokens) (h' : Text.keyword token ∈ o'.tokens) :
    Text.keyword front = "not" ∧ Text.keyword token ∈ ["like", "in", "null"] := by
  rw [Text.keyword_append (isSolid_of_mem_tokens h)] at h
  exact eq_not_of_append_mem_tokens h h'

end Sql.Operator

/-! ## Ids come apart -/

theorem toList_append_underscore (s s' : String) :
    (s ++ "_" ++ s').toList = s.toList ++ '_' :: s'.toList := by
  rw [String.toList_append, String.toList_append, List.append_assoc]
  rfl

/-- Texts around an underscore come apart at it, or one of them at a later
underscore than the other. -/
theorem append_underscore_eq_iff {s t s' t' : String} :
    s ++ "_" ++ t = s' ++ "_" ++ t' ↔
      (s = s' ∧ t = t') ∨
      (∃ between, s' = s ++ "_" ++ between ∧ t = between ++ "_" ++ t') ∨
      ∃ between, s = s' ++ "_" ++ between ∧ t' = between ++ "_" ++ t := by
  have hexists (P : List Char → Prop) : (∃ cs, P cs) ↔ ∃ s : String, P s.toList :=
    Function.Surjective.exists fun cs => ⟨String.ofList cs, String.toList_ofList⟩
  simp only [← String.toList_inj, toList_append_underscore]
  rw [append_cons_eq_append_cons_iff, hexists, hexists]

namespace Criteria

namespace Test

theorem underscore_not_mem_integerText (n : Int) : '_' ∉ (integerText n).toList := fun h =>
  absurd (isNumeralChar_of_mem_integerText h) (by decide)

/-- **An id determines the source**, for it ends at the first underscore. -/
theorem idOf_eq_idOf_iff {source source' : FeatureTypeId} {name name' operator operator' : String} :
    idOf source name operator = idOf source' name' operator' ↔
      source = source' ∧ name ++ "_" ++ operator = name' ++ "_" ++ operator' := by
  have hassoc (source : FeatureTypeId) (name operator : String) :
      idOf source name operator = integerText source.toInt ++ "_" ++ (name ++ "_" ++ operator) := by
    simp only [idOf, String.append_assoc]
  rw [hassoc, hassoc]
  constructor
  · intro h
    rw [← String.toList_inj, toList_append_underscore (integerText source.toInt),
      toList_append_underscore (integerText source'.toInt)] at h
    obtain ⟨hsource, hrest⟩ := eq_and_eq_of_append_cons_of_not_mem
      (underscore_not_mem_integerText _) (underscore_not_mem_integerText _) h
    exact ⟨Int64.toInt_inj.mp (integerText_injective (String.toList_inj.mp hsource)),
      String.toList_inj.mp hrest⟩
  · rintro ⟨rfl, hrest⟩
    rw [hrest]

/-- The `not` before an underscore belongs to the operator of one test, and
to the attribute of the other one, whose operator is denied by that. -/
def SharesNot (t t' : Test) : Prop :=
  ∃ not, Text.keyword not = "not" ∧ Text.keyword t'.operator ∈ ["like", "in", "null"] ∧
    t'.attributeName = t.attributeName ++ "_" ++ not ∧ t.operator = not ++ "_" ++ t'.operator

/-- Among operators that there are, nothing but a `not` can be between the
two. -/
theorem sharesNot_iff {t t' : Test} {o o' : Operator} (h : Text.keyword t.operator ∈ o.tokens)
    (h' : Text.keyword t'.operator ∈ o'.tokens) :
    t.SharesNot t' ↔ ∃ between, t'.attributeName = t.attributeName ++ "_" ++ between ∧
      t.operator = between ++ "_" ++ t'.operator := by
  constructor
  · rintro ⟨not, -, -, hattribute, hlong⟩
    exact ⟨not, hattribute, hlong⟩
  · rintro ⟨between, hattribute, hlong⟩
    rw [hlong] at h
    obtain ⟨hnot, hdenied⟩ := Operator.keyword_eq_not h h'
    exact ⟨between, hnot, hdenied, hattribute, hlong⟩

end Test

/-- **Tests that share an id.** Take two conditions that are tests, with
operators that there are. Their tests have one id exactly if the
conditions name the same source, attribute and operator, or if they name
the same source, one operator denies the other with a `not`, and the
attribute of the denied one ends with this `not`. -/
theorem Condition.id_eq_iff {c c' : Condition} {t t' : Test} {o o' : Operator}
    (h : c.test = .ok t) (h' : c'.test = .ok t') (htoken : Text.keyword t.operator ∈ o.tokens)
    (htoken' : Text.keyword t'.operator ∈ o'.tokens) :
    t.id = t'.id ↔ c.source = c'.source ∧
      ((c.attributeName = c'.attributeName ∧ c.operator = c'.operator) ∨
        t.SharesNot t' ∨ t'.SharesNot t) := by
  obtain ⟨hsource, hname, hoperator, hid⟩ := eq_of_test_eq_ok h
  obtain ⟨hsource', hname', hoperator', hid'⟩ := eq_of_test_eq_ok h'
  rw [hid, hid', hsource, hsource', hname, hname', hoperator, hoperator', Test.idOf_eq_idOf_iff,
    append_underscore_eq_iff, Option.some.injEq, Option.some.injEq, Option.some.injEq]
  exact and_congr_right fun _ => or_congr Iff.rfl
    (or_congr (Test.sharesNot_iff htoken htoken').symm (Test.sharesNot_iff htoken' htoken).symm)

/-- A condition on what is not among values. -/
def outsideCondition : Condition :=
  { id := "criteria-1", source := some 1, attributeName := some "code", operator := some " Not_in" }

/-- A condition on what is among values, of an attribute with the `not`
at its end. -/
def insideCondition : Condition :=
  { id := "criteria-2", source := some 1, attributeName := some "code_ Not", operator := some "in" }

/-- The two conditions share an id. -/
theorem outsideCondition_id_eq :
    ∃ t t' : Test, outsideCondition.test = .ok t ∧ insideCondition.test = .ok t' ∧
      Text.keyword t.operator ∈ Operator.noneOf.tokens ∧
      Text.keyword t'.operator ∈ Operator.oneOf.tokens ∧ t.SharesNot t' ∧
      t.id = "1_code_ Not_in" ∧ t.id = t'.id := by
  have htoken : Text.keyword " Not_in" ∈ Operator.noneOf.tokens := by decide +kernel
  have htoken' : Text.keyword "in" ∈ Operator.oneOf.tokens := by decide +kernel
  let t : Test := ⟨"1_code_ Not_in", 1, "code", " Not_in", [], none⟩
  let t' : Test := ⟨"1_code_ Not_in", 1, "code_ Not", "in", [], none⟩
  have htest : outsideCondition.test = .ok t := by decide +kernel
  have htest' : insideCondition.test = .ok t' := by decide +kernel
  have hshares : t.SharesNot t' :=
    ⟨" Not", by decide +kernel, by decide +kernel, by decide +kernel, by decide +kernel⟩
  exact ⟨t, t', htest, htest', htoken, htoken', hshares, rfl,
    (Condition.id_eq_iff htest htest' htoken htoken').mpr ⟨rfl, .inr (.inl hshares)⟩⟩

/-- **Ids do not tell all tests apart.** -/
theorem not_forall_id_ne :
    ¬ ∀ (c c' : Condition) (t t' : Test) (o o' : Operator), c.test = .ok t → c'.test = .ok t' →
      Text.keyword t.operator ∈ o.tokens → Text.keyword t'.operator ∈ o'.tokens →
      (c.source, c.attributeName, c.operator) ≠ (c'.source, c'.attributeName, c'.operator) →
      t.id ≠ t'.id := by
  intro h
  let outside : Condition :=
    { id := "criteria-1", source := some 1, attributeName := some "a", operator := some "not_in",
      values := some [some (.text "x")] }
  let inside : Condition :=
    { id := "criteria-2", source := some 1, attributeName := some "a_not", operator := some "in",
      values := some [some (.text "x")] }
  have htest : outside.test =
      .ok ⟨"1_a_not_in", 1, "a", "not_in", [some (.text "x")], none⟩ := by decide +kernel
  have htest' : inside.test =
      .ok ⟨"1_a_not_in", 1, "a_not", "in", [some (.text "x")], none⟩ := by decide +kernel
  exact h _ _ _ _ .noneOf .oneOf htest htest' (by decide +kernel) (by decide +kernel)
    (by decide +kernel) rfl

end Criteria

end LayerQuery
