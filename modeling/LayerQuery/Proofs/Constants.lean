import LayerQuery.Proofs.Integers
import LayerQuery.Proofs.Outcome
import LayerQuery.Proofs.Question
/-!
# Operands that are constants

What a query compares with is written without quotes unless it is text,
and what is not quoted has to be a constant: a truth value, or a decimal
number without an exponent (`Token.IsConstant`). Integers and finite
numbers are written so, and a number of a stored test is finite.

A text is another matter. Where the attribute is of floating-point type
it may name an infinity, or spell a number that is too large for the
format, or name what is no number. It is read all the same, and then the
query holds a bare word, which the backend takes for the name of a
column. The operands are constants exactly if no text is of this kind
(`isConstant_operands_iff`).
-/

namespace LayerQuery

open Json Criteria Sql

/-! ## Decimal constants -/

namespace Sql

/-- A decimal number with at most one point and no exponent, within the format. -/
def IsDecimal (w : List Char) : Prop :=
  ∃ n, SpellsNumeral n w ∧ n.exponent = none ∧ (Binary64.ofNumeral n).isFinite = true

/-- A text in quotes, a truth value or a decimal number. -/
def Token.IsConstant : Token → Prop
  | .literal _ _ => True
  | .word w => w = "TRUE".toList ∨ w = "FALSE".toList ∨ IsDecimal w
  | _ => False

/-- The words for what is no finite number. -/
def unboundedWords : List String := ["inf", "-inf", "NaN"]

theorem isDecimal_integerText {n : Int} (h : n.natAbs < twoPow 64) :
    IsDecimal (integerText n).toList := by
  rw [← Binary64.text_integer]
  exact ⟨_, spellsNumeral_text _, rfl, Binary64.isFinite_ofNumeral rfl rfl h⟩

/-- A query writes no exponents. -/
theorem exponent_numeral_query (negative : Bool) (rank : Nat) :
    (Spelling.query.numeral negative rank).exponent = none := by
  change (Numeral.positional negative _).exponent = none
  rw [Numeral.positional]
  split <;> rfl

theorem isDecimal_queryText {x : Binary64} (h : x.isFinite = true) :
    IsDecimal x.queryText.toList := by
  cases x with
  | finite negative rank =>
    refine ⟨_, spellsNumeral_text _, exponent_numeral_query negative rank, ?_⟩
    rw [Binary64.ofNumeral_numeral]
    rfl
  | infinite negative => cases h
  | nan => cases h

theorem queryText_mem_unboundedWords {x : Binary64} (h : x.isFinite = false) :
    x.queryText ∈ unboundedWords := by
  cases x with
  | finite negative rank => cases h
  | infinite negative => cases negative <;> decide
  | nan => decide

/-- No word for what is no finite number is a constant. -/
theorem not_isConstant_of_mem {w : String} (h : w ∈ unboundedWords) :
    ¬ (Token.word w.toList).IsConstant := by
  have hnone : ∀ w ∈ unboundedWords, w ≠ "TRUE" ∧ w ≠ "FALSE" ∧ numeralOf? w.toList = none := by
    decide
  obtain ⟨htrue, hfalse, hnumeral⟩ := hnone w h
  rintro (hw | hw | ⟨n, hn, -⟩)
  · exact htrue (String.toList_inj.mp hw)
  · exact hfalse (String.toList_inj.mp hw)
  · rw [numeralOf?_eq_some_iff.mpr hn] at hnumeral
    cases hnumeral

theorem isConstant_boolean (b : Bool) : (Operand.boolean b).token.IsConstant := by
  cases b
  · exact .inr (.inl rfl)
  · exact .inl rfl

end Sql

/-! ## Values and their operands -/

namespace Criteria

/-- A text for a floating-point attribute that spells no finite number. -/
def Value.IsUnbounded (type : Option AttributeType) : Value → Prop
  | .text s =>
    type = some .double ∧ ∃ x, SpellsReal x (Text.trim s).toList ∧ x.isFinite = false
  | .boolean _ | .number _ => False

/-- A number that is read from a document is finite. -/
theorem Value.isFinite_of_read {d : Document} {x : Binary64}
    (h : Value.codec.read d = .ok (.number x)) : x.isFinite = true := by
  have hkept := (@Value.isFaithful_codec 0 d _ h).read_write
  cases x with
  | finite negative rank => rfl
  | infinite negative => cases hkept
  | nan => cases hkept

theorem Value.isFinite_of_read_option {d : Document} {x : Binary64}
    (h : (Codec.option Value.codec).read d = .ok (some (.number x))) : x.isFinite = true := by
  have hnull : d ≠ .null := by
    rintro rfl
    cases h
  rw [Codec.read_option_of_ne_null hnull] at h
  obtain ⟨v, hv, hsome⟩ := eq_ok_of_map_eq_ok h
  obtain rfl := Option.some.inj hsome
  exact Value.isFinite_of_read hv

namespace Test

/-- So are the numbers of a test that is read from one. -/
theorem isFinite_of_ofText {text : String} {t : Test} (h : Test.codec.ofText text = .ok t)
    {x : Binary64} (hx : Value.number x ∈ present t.values) : x.isFinite = true := by
  obtain ⟨d, -, hread⟩ := Codec.ofText_eq_ok_iff.mp h
  unfold Test.codec at hread
  obtain ⟨-, ⟨id, featureType, name, operator, values, type, _⟩,
    ⟨-, -, -, -, hvalues, -⟩, rfl⟩ := (Fields.read_codec_eq_ok_iff (by decide)).mp hread
  have hmem : some (Value.number x) ∈ values := by simpa [present] using hx
  -- the list of values is given, or there are none
  unfold Field.Gets at hvalues
  split at hvalues
  · obtain ⟨items, -, hitems⟩ := Codec.read_list_eq_ok_iff.mp hvalues
    obtain ⟨item, -, hitem⟩ := exists_of_mem_of_forall₂ hitems hmem
    exact Value.isFinite_of_read_option hitem
  · obtain rfl := Option.some.inj hvalues
    cases hmem

theorem natAbs_lt_of_toIntBelow? {x : Binary64} {n : Int}
    (h : x.toIntBelow? (tenPow 15) = some n) : n.natAbs < twoPow 64 := by
  have hbound := (Option.filter_eq_some_iff.mp h).2
  have hlimit : tenPow 15 < twoPow 64 := by decide +kernel
  exact (of_decide_eq_true hbound).trans hlimit

theorem isConstant_numberOperand {type : Option AttributeType} {x : Binary64}
    (h : x.isFinite = true) : (numberOperand type x).token.IsConstant := by
  unfold numberOperand
  split
  · exact .inr (.inr (isDecimal_queryText h))
  · split
    · next n hn => exact .inr (.inr (isDecimal_integerText (natAbs_lt_of_toIntBelow? hn)))
    · exact .inr (.inr (isDecimal_queryText h))

/-- The operand of a text is a constant, or the word for a number that is not finite. -/
theorem textOperand_cases {type : Option AttributeType} {s : String} {o : Operand}
    (h : textOperand type s = .ok o) :
    (o.token.IsConstant ∧ ¬ (Value.text s).IsUnbounded type) ∨
      ∃ w ∈ unboundedWords, o.token = .word w.toList ∧ (Value.text s).IsUnbounded type := by
  unfold textOperand at h
  split at h
  · split at h
    · next n hn =>
      obtain rfl := Except.ok.inj h
      have hword := (readInteger?_eq_some_iff.mp hn).2
      exact .inl ⟨.inr (.inr (isDecimal_integerText (natAbs_lt_of_inWord hword))),
        fun hunbounded => by cases hunbounded.1⟩
    · cases h
  · split at h
    · next x hx =>
      obtain rfl := Except.ok.inj h
      have hreal := readNumber?_eq_some_iff.mp hx
      cases hfinite : x.isFinite with
      | true =>
        refine .inl ⟨.inr (.inr (isDecimal_queryText hfinite)), ?_⟩
        rintro ⟨-, y, hy, hunbounded⟩
        rw [readNumber?_eq_some_iff.mpr hy] at hx
        obtain rfl := Option.some.inj hx
        rw [hfinite] at hunbounded
        cases hunbounded
      | false =>
        exact .inr ⟨_, queryText_mem_unboundedWords hfinite, rfl, rfl, x, hreal, hfinite⟩
    · cases h
  · split at h
    · next b hb =>
      obtain rfl := Except.ok.inj h
      exact .inl ⟨isConstant_boolean b, fun hunbounded => by cases hunbounded.1⟩
    · cases h
  · next hdouble _ =>
    obtain rfl := Except.ok.inj h
    exact .inl ⟨trivial, fun hunbounded => hdouble hunbounded.1⟩

/-- **The operand of a value is a constant, or the word for a number that is not finite**, and it
is the latter for the texts that spell such a number. -/
theorem operand_cases {type : Option AttributeType} {v : Value} {o : Operand}
    (hfinite : ∀ x, v = .number x → x.isFinite = true) (h : operand type v = .ok o) :
    (o.token.IsConstant ∧ ¬ v.IsUnbounded type) ∨
      ∃ w ∈ unboundedWords, o.token = .word w.toList ∧ v.IsUnbounded type := by
  cases v with
  | boolean b =>
    obtain rfl := Except.ok.inj h
    exact .inl ⟨isConstant_boolean b, not_false⟩
  | number x =>
    obtain rfl := Except.ok.inj h
    exact .inl ⟨isConstant_numberOperand (hfinite x rfl), not_false⟩
  | text s => exact textOperand_cases h

theorem isConstant_token_iff {type : Option AttributeType} {v : Value} {o : Operand}
    (hfinite : ∀ x, v = .number x → x.isFinite = true) (h : operand type v = .ok o) :
    o.token.IsConstant ↔ ¬ v.IsUnbounded type := by
  rcases operand_cases hfinite h with ⟨hconstant, hbounded⟩ | ⟨w, hw, htoken, hunbounded⟩
  · exact iff_of_true hconstant hbounded
  · rw [htoken]
    exact iff_of_false (not_isConstant_of_mem hw) (not_not.mpr hunbounded)

/-! ## The operands of a query -/

theorem forall_isConstant_iff {type : Option AttributeType} {vs : List Value} {os : List Operand}
    (hfinite : ∀ x, Value.number x ∈ vs → x.isFinite = true)
    (h : List.Forall₂ (fun v o => operand type v = .ok o) vs os) :
    (∀ tok ∈ os.map Operand.token, tok.IsConstant) ↔ ∀ v ∈ vs, ¬ v.IsUnbounded type := by
  rw [List.forall_mem_map]
  induction h with
  | nil => exact iff_of_true (by simp) (by simp)
  | cons hv _ ih =>
    rw [List.forall_mem_cons, List.forall_mem_cons,
      ih fun x hx => hfinite x (List.mem_cons_of_mem _ hx),
      isConstant_token_iff (fun x hx => hfinite x (hx ▸ List.mem_cons_self)) hv]

/-- Some value that the operator looks up spells no finite number. -/
def ComparesUnbounded (t : Test) : Prop :=
  ∃ o : Operator, Text.keyword t.operator ∈ o.tokens ∧ o.demand = .operands ∧
    ∃ v ∈ present t.values, v.IsUnbounded t.attributeType

theorem comparesUnbounded_iff {t : Test} {o : Operator} (h : Text.keyword t.operator ∈ o.tokens) :
    t.ComparesUnbounded ↔
      o.demand = .operands ∧ ∃ v ∈ present t.values, v.IsUnbounded t.attributeType := by
  constructor
  · rintro ⟨o', ho', hdemand, hv⟩
    obtain rfl := Operator.eq_of_mem_tokens h ho'
    exact ⟨hdemand, hv⟩
  · rintro ⟨hdemand, hv⟩
    exact ⟨o, h, hdemand, hv⟩

/-- **Operands are constants but for texts that spell no finite number.** Take a test that is read
from a document and compiles. Each operand of its query is a text in quotes, a truth value or a
decimal number, or it is one of three words. The words stand for texts of a floating-point
attribute that spell no finite number: without such a text among those that the operator looks up,
all operands are constants, and with one of them they are not. -/
theorem isConstant_operands_iff {text : String} {t : Test} {q : String}
    (hread : Test.codec.ofText text = .ok t) (h : t.sql = .ok q) :
    ∃ question : Question, question.IsIn t.attributeName q ∧
      (∀ tok ∈ question.operands, tok.IsConstant ∨ tok ∈ words unboundedWords) ∧
      ((∀ tok ∈ question.operands, tok.IsConstant) ↔ ¬ t.ComparesUnbounded) := by
  obtain ⟨o, p, hmem, hp, rfl⟩ := exists_predicateOf_of_sql_eq_ok h
  refine ⟨p.question, column_of_predicateOf hp ▸ p.isIn_text, ?_⟩
  rw [comparesUnbounded_iff hmem]
  rcases operands_question_of_predicateOf hp with ⟨os, hdemand, hos, htokens⟩ | ⟨hnone, hboolean⟩
  · obtain ⟨hforall, -⟩ := operands_eq_ok hos
    have hfinite : ∀ x, Value.number x ∈ present t.values → x.isFinite = true :=
      fun x hx => isFinite_of_ofText hread hx
    rw [htokens]
    constructor
    · intro tok htok
      obtain ⟨operand, hoperand, rfl⟩ := List.mem_map.mp htok
      obtain ⟨v, hv, hvalue⟩ := exists_of_mem_of_forall₂ hforall hoperand
      rcases operand_cases (fun x hx => hfinite x (hx ▸ hv)) hvalue with hconstant | hword
      · exact .inl hconstant.1
      · obtain ⟨w, hw, htoken, -⟩ := hword
        exact .inr (htoken ▸ List.mem_map_of_mem hw)
    · rw [forall_isConstant_iff hfinite hforall]
      simp [hdemand]
  · have hconstant : ∀ tok ∈ p.question.operands, tok.IsConstant := by
      intro tok htok
      obtain ⟨b, rfl⟩ := hboolean tok htok
      exact isConstant_boolean b
    refine ⟨fun tok htok => .inl (hconstant tok htok), iff_of_true hconstant ?_⟩
    rintro ⟨hdemand, v, hv, -⟩
    rcases hnone with hbare | hother
    · rw [(isBare_iff.mp hbare).2] at hv
      cases hv
    · exact hother hdemand

/-- A test of a floating-point attribute, with the name of an infinity as its value. -/
def depthText : String :=
  "\x7b\"dataId\":\"1_depth_=\",\"featureType\":1,\"attribute\":\"depth\",\"condition\":\"=\"," ++
    "\"value\":[\" Infinity\"],\"attributeType\":\"double\"\x7d"

/-- The test that the text holds. -/
def depthTest : Test :=
  ⟨"1_depth_=", 1, "depth", "=", [some (.text " Infinity")], some .double⟩

theorem ofText_depthText : Test.codec.ofText depthText = .ok depthTest := by
  decide +kernel

theorem sql_depthTest : depthTest.sql = .ok "\"depth\" = inf" := by
  decide +kernel

theorem depthTest_comparesUnbounded : depthTest.ComparesUnbounded :=
  ⟨.equal, by decide +kernel, rfl, .text " Infinity", List.mem_singleton.mpr rfl, rfl,
    .infinite false, readNumber?_eq_some_iff.mp (by decide +kernel), rfl⟩

/-- The word that the value becomes is no constant. -/
theorem depthTest_operands :
    Test.codec.ofText depthText = .ok depthTest ∧ depthTest.sql = .ok "\"depth\" = inf" ∧
      ∃ question : Question, question.IsIn "depth" "\"depth\" = inf" ∧
        (∀ tok ∈ question.operands, tok.IsConstant ∨ tok ∈ words unboundedWords) ∧
        ∃ tok ∈ question.operands, ¬ tok.IsConstant := by
  obtain ⟨question, hquestion, hwords, hiff⟩ :=
    isConstant_operands_iff ofText_depthText sql_depthTest
  refine ⟨ofText_depthText, sql_depthTest, question, hquestion, hwords, ?_⟩
  by_contra hall
  push Not at hall
  exact hiff.mp hall depthTest_comparesUnbounded

/-- So operands are not always constants. -/
theorem not_forall_isConstant_operands :
    ¬ ∀ (text : String) (t : Test) (q : String) (question : Question),
      Test.codec.ofText text = .ok t → t.sql = .ok q → question.IsIn t.attributeName q →
        ∀ tok ∈ question.operands, tok.IsConstant := by
  intro h
  have hin := Predicate.isIn_text (.compare "depth" .equal (.real (.infinite false)))
  have hinf : (Token.word "inf".toList).IsConstant :=
    h depthText depthTest "\"depth\" = inf" (.compare .equal (.word "inf".toList))
      ofText_depthText sql_depthTest hin _ List.mem_cons_self
  exact not_isConstant_of_mem (by decide) hinf

end Test

end Criteria

end LayerQuery
