import LayerQuery.Proofs.RoundTrip
import LayerQuery.Proofs.Leaf
import LayerQuery.Proofs.Outcome
import LayerQuery.Proofs.Shortest
import LayerQuery.Proofs.Trimming
import LayerQuery.Proofs.TypedNumbers
/-!
# Integers as numbers and as text

A value of an integer attribute may be given in JSON as a number or as
the text of one. The text is read as an integer, and the test compares
with exactly that integer (`readInteger?_integerText`). The number is
read as a floating-point number, and the test compares with the shortest
whole number for it (`exists_isShortest_numberOperand`). Below `2 ^ 53`
that is the integer itself, and the two tests are one predicate. Beyond,
they are so exactly where the integer is its own shortest form
(`sql_of_integer`), which `2 ^ 53 + 1` is not
(`not_forall_sql_of_integer`).
-/

namespace LayerQuery

/-! ## Reading integers -/

theorem trim_integerText (n : Int) : Text.trim (integerText n) = integerText n := by
  have hsolid : Text.IsSolid (integerText n).toList := fun c hc =>
    Sql.isBlank_of_isWordChar
      (Sql.isWordChar_of_isNumeralChar (isNumeralChar_of_mem_integerText hc))
  rw [Text.trim, Text.trimChars_eq_self hsolid, String.ofList_toList]

theorem signed_natAbs (n : Int) : signed (decide (n < 0)) n.natAbs = n := by
  simp only [signed, decide_eq_true_eq]
  split <;> omega

/-- The decimal form of an integer is one of its forms. -/
theorem spellsInteger_integerText (n : Int) : SpellsInteger n (integerText n).toList := by
  obtain ⟨d, ds, hdigits, hvalue⟩ := Json.exists_digits_repr n.natAbs
  have hsign : Json.SpellsSign (decide (n < 0)) (if n < 0 then ['-'] else []) := by
    by_cases hneg : n < 0
    · rw [decide_eq_true hneg, if_pos hneg]
      exact .minus
    · rw [decide_eq_false hneg, if_neg hneg]
      exact .none
  have hspells := SpellsInteger.mk hsign d ds
  rwa [hvalue, signed_natAbs, ← hdigits, ← toList_integerText] at hspells

/-- **An integer of a word is read from its decimal form.** -/
theorem readInteger?_integerText {n : Int} (h : inWord n = true) :
    readInteger? (integerText n) = some n :=
  readInteger?_eq_some_iff.mpr ⟨spellsInteger_integerText n, h⟩

/-! ## Integers in JSON -/

open Json Criteria

theorem natAbs_lt_of_inWord {n : Int} (h : inWord n = true) : n.natAbs < twoPow 64 := by
  have hword : twoPow 64 = twoPow 63 * 2 := twoPow_succ 63
  simp only [inWord, Bool.and_eq_true, decide_eq_true_eq] at h
  omega

namespace Json

theorem text_ofInt (n : Int) : (Document.ofInt n).text = integerText n := by
  rw [Document.text, Document.ofInt, Document.chars, String.ofList_toList, Binary64.text_integer]

theorem isSound_ofInt_of_inWord {n : Int} (h : inWord n = true) :
    (Document.ofInt n).isSound = true := by
  have hword : twoPow 63 = 2 ^ 63 := twoPow_eq 63
  simp only [inWord, hword, Bool.and_eq_true, decide_eq_true_eq] at h
  have hsame : (Int64.ofInt n).toInt = n := Int64.toInt_ofInt_of_le (by omega) (by omega)
  rw [← hsame]
  exact Codec.isSound_ofInt (Int64.ofInt n)

end Json

namespace Criteria

/-- The numeral of an integer is the nearest number of the format. -/
theorem ofNumeral_integer {n : Int} (rank : Fin Binary64.count)
    (hrank : rank = Binary64.rankOfNat n.natAbs) :
    Binary64.ofNumeral ⟨decide (n < 0), n.natAbs, [], none⟩ = .finite (decide (n < 0)) rank := by
  have hmagnitude : (⟨decide (n < 0), n.natAbs, [], none⟩ : Numeral).magnitude = ⟨n.natAbs, 0⟩ :=
    Numeral.magnitude_of_fraction_eq_nil rfl
  have hsame : Binary64.rankOfDecimal ⟨n.natAbs, 0⟩ = rank := hrank.symm
  rw [Binary64.ofNumeral, Binary64.ofDecimal, hmagnitude, hsame, Binary64.ofRank,
    dif_pos rank.isLt]

/-- The value of a scalar that is written down. -/
theorem Value.ofText_text {d : Document} {v : Value} (hsound : d.isSound = true)
    (hdepth : d.depth = 0) (hv : Value.ofDocument? d = some v) :
    Value.codec.ofText d.text = .ok v := by
  refine Codec.ofText_eq_ok_iff.mpr ⟨d, Document.read_text hsound, ?_⟩
  rw [Document.within_eq_self (hdepth.trans_le (Nat.zero_le _))]
  exact Value.read_eq_ok hsound hv

/-- **A JSON number** that is an integer of a word is read as the number
of the format nearest to it. -/
theorem Value.ofText_integerText {n : Int} (h : inWord n = true) {rank : Fin Binary64.count}
    (hrank : rank = Binary64.rankOfNat n.natAbs) :
    Value.codec.ofText (integerText n) = .ok (.number (.finite (decide (n < 0)) rank)) := by
  have hvalue : Value.ofDocument? (.ofInt n) = some (.number (.finite (decide (n < 0)) rank)) := by
    rw [Document.ofInt, Value.ofDocument?, realOfNumeral_eq, ofNumeral_integer rank hrank]
  have hread := Value.ofText_text (isSound_ofInt_of_inWord h) rfl hvalue
  rwa [text_ofInt] at hread

/-- **A JSON string** is read as it is. -/
theorem Value.ofText_quote (s : String) :
    Value.codec.ofText (String.ofList (quote s)) = .ok (.text s) := by
  have hsound : (Document.ofText s).isSound = true := rfl
  have htext : (Document.ofText s).text = String.ofList (quote s) := by
    rw [Document.text, Document.ofText, Document.chars]
    rfl
  rw [← htext]
  exact Value.ofText_text hsound rfl rfl

end Criteria

/-! ## What an operand is compared as -/

namespace Binary64

/-- The integer of a magnitude that is a whole number. -/
theorem toIntBelow?_eq {rank : Fin count} {v : Nat} (hunits : units rank = v * unitsOfOne)
    (negative : Bool) (bound : Nat) :
    (finite negative rank).toIntBelow? bound =
      if v < bound then some (signed negative v) else none := by
  have hone : 0 < unitsOfOne := twoPow_pos 1074
  have htoInt : (finite negative rank).toInt? = some (signed negative v) := by
    simp only [toInt?, hunits, Nat.mul_mod_left, if_true, Nat.mul_div_cancel v hone, signed]
  rw [toIntBelow?, htoInt, Option.filter_some, natAbs_signed]
  simp only [decide_eq_true_eq]

/-- A number has an integer below a bound exactly if its magnitude is a
whole number below it. -/
theorem toIntBelow?_eq_some_iff {x : Binary64} {bound : Nat} {n : Int} :
    x.toIntBelow? bound = some n ↔ ∃ negative rank v, x = finite negative rank ∧
      units rank = v * unitsOfOne ∧ v < bound ∧ n = signed negative v := by
  constructor
  · intro h
    cases x with
    | infinite negative => cases h
    | nan => cases h
    | finite negative rank =>
      -- the magnitude is divided by one without a rest
      by_cases hwhole : units rank % unitsOfOne = 0
      · have hunits : units rank = units rank / unitsOfOne * unitsOfOne :=
          (Nat.div_mul_cancel (Nat.dvd_of_mod_eq_zero hwhole)).symm
        rw [toIntBelow?_eq hunits] at h
        split at h
        · next hlt => exact ⟨negative, rank, _, rfl, hunits, hlt, (Option.some.inj h).symm⟩
        · cases h
      · rw [toIntBelow?, toInt?, if_neg hwhole] at h
        cases h
  · rintro ⟨negative, rank, v, rfl, hunits, hlt, rfl⟩
    rw [toIntBelow?_eq hunits, if_pos hlt]

end Binary64

namespace Criteria.Test

open Sql Binary64

/-- **A number read from an integer is compared as its shortest whole
number**, unless the attribute is of floating-point type. -/
theorem exists_isShortest_numberOperand {n : Nat} (hn : n < twoPow 64) {rank : Fin count}
    (hrank : rank = rankOfNat n) {type : Option AttributeType} (htype : type ≠ some .double)
    (negative : Bool) :
    ∃ m, IsShortest rank m ∧ (numberOperand type (.finite negative rank)).chars =
      (Operand.integer (signed negative m)).chars := by
  have hbound : n < tenPow 401 := hn.trans (by decide +kernel)
  obtain ⟨v, hunits, hsmall⟩ := exists_units_rankOfNat hbound
  rw [← hrank] at hunits
  rw [numberOperand, if_neg htype, toIntBelow?_eq hunits]
  -- a small number is written as an integer, a large one with few digits
  by_cases hlt : v < tenPow 15
  · have hexact : v < twoPow 53 := hlt.trans (by decide +kernel)
    obtain rfl := hsmall hexact
    rw [if_pos hlt]
    exact ⟨v, hrank ▸ isShortest_rankOfNat hexact, rfl⟩
  · have hv : v ≠ 0 := ((tenPow_pos 15).trans_le (Nat.not_lt.mp hlt)).ne'
    obtain ⟨m, hm, htext⟩ := exists_isShortest hv hunits
    rw [if_neg hlt]
    exact ⟨m, hm, congrArg String.toList (htext negative)⟩

end Criteria.Test

/-! ## What is compared -/

namespace Sql

/-- What an operator makes of one operand that a column is compared with,
if it compares. -/
def Operator.comparing? : Operator → Option (String → Operand → Predicate)
  | .equal => some fun column o => .compare column .equal o
  | .unequal => some fun column o => .compare column .unequal o
  | .greater => some fun column o => .compare column .greater o
  | .less => some fun column o => .compare column .less o
  | .atLeast => some fun column o => .compare column .atLeast o
  | .atMost => some fun column o => .compare column .atMost o
  | .oneOf => some fun column o => .member column false [o]
  | .noneOf => some fun column o => .member column true [o]
  | _ => none

namespace Predicate

/-- Predicates of one column are told apart by what follows it. -/
theorem text_eq_iff_testChars_eq {p q : Predicate} (h : p.column = q.column) :
    p.text = q.text ↔ p.testChars = q.testChars := by
  rw [text_eq, text_eq, String.ofList_inj, chars, chars, h]
  simp only [List.append_cancel_left_eq, List.cons.injEq, true_and]

theorem text_compare_eq_iff {column : String} {comparison : Comparison} {o o' : Operand} :
    (compare column comparison o).text = (compare column comparison o').text ↔
      o.chars = o'.chars := by
  have hcolumn : (compare column comparison o).column = (compare column comparison o').column := rfl
  rw [text_eq_iff_testChars_eq hcolumn]
  simp only [testChars, List.append_cancel_left_eq, List.cons.injEq, true_and]

theorem text_member_eq_iff {column : String} {negated : Bool} {o o' : Operand} :
    (member column negated [o]).text = (member column negated [o']).text ↔
      o.chars = o'.chars := by
  have hcolumn : (member column negated [o]).column = (member column negated [o']).column := rfl
  rw [text_eq_iff_testChars_eq hcolumn]
  simp only [testChars, List.map_cons, List.map_nil, List.intercalate, List.intersperse,
    List.flatten_cons, List.flatten_nil, List.append_nil, List.append_assoc,
    List.append_cancel_left_eq, List.append_cancel_right_eq]

end Predicate

/-- **Comparisons of one column are told apart by the operand**, as it is
written. -/
theorem Operator.text_comparing_eq_iff {operator : Operator}
    {comparing : String → Operand → Predicate} (h : operator.comparing? = some comparing)
    (column : String) (o o' : Operand) :
    (comparing column o).text = (comparing column o').text ↔ o.chars = o'.chars := by
  cases operator with
  | equal | unequal | greater | less | atLeast | atMost =>
    obtain rfl := Option.some.inj h
    exact Predicate.text_compare_eq_iff
  | oneOf | noneOf =>
    obtain rfl := Option.some.inj h
    exact Predicate.text_member_eq_iff
  | _ => cases h

end Sql

namespace Criteria.Test

open Sql Binary64

/-- The only value that is there has the only operand. -/
theorem operands_of_present_eq {t : Test} {v : Value} {o : Operand}
    (hvalues : present t.values = [v]) (ho : operand t.attributeType v = .ok o) :
    t.operands = .ok [o] := by
  have hmapM : (present t.values).mapM (operand t.attributeType) = .ok [o] := by
    rw [hvalues]
    exact mapM_eq_ok_iff.mpr (.cons ho .nil)
  rw [operands, hmapM]
  rfl

/-- An operator that compares makes the comparison of the only operand. -/
theorem predicateOf_eq_of_operands {t : Test} {operator : Operator}
    {comparing : String → Operand → Predicate} {o : Operand}
    (hcomparing : operator.comparing? = some comparing) (hbare : t.isBare = false)
    (hoperands : t.operands = .ok [o]) :
    t.predicateOf operator = .ok (comparing t.attributeName o) := by
  cases operator with
  | equal | unequal =>
    obtain rfl := Option.some.inj hcomparing
    rw [predicateOf, hbare, if_neg Bool.false_ne_true, equality, hoperands]
    rfl
  | greater | less | atLeast | atMost =>
    obtain rfl := Option.some.inj hcomparing
    rw [predicateOf, singleOperand, hoperands]
    rfl
  | oneOf | noneOf =>
    obtain rfl := Option.some.inj hcomparing
    rw [predicateOf, hoperands]
    rfl
  | _ => cases hcomparing

/-- **A test that compares with one value** becomes the comparison with
its operand. -/
theorem sql_eq_of_present_eq {t : Test} {operator : Operator}
    {comparing : String → Operand → Predicate} {v : Value} {o : Operand}
    (hoperator : Operator.ofToken? t.operator = some operator)
    (hcomparing : operator.comparing? = some comparing) (hvalues : present t.values = [v])
    (ho : operand t.attributeType v = .ok o) :
    t.sql = .ok (comparing t.attributeName o).text := by
  have hbare : t.isBare = false := by
    rw [← Bool.not_eq_true, isBare_iff]
    rintro ⟨-, hnone⟩
    rw [hvalues] at hnone
    cases hnone
  have hpredicate :=
    predicateOf_eq_of_operands hcomparing hbare (operands_of_present_eq hvalues ho)
  rw [sql_eq_of_ofToken? hoperator, hpredicate]
  rfl

/-- The test with another value in place of its own. -/
def withValue (t : Test) (v : Value) : Test := { t with values := [some v] }

theorem sql_withValue {t : Test} {operator : Operator} {comparing : String → Operand → Predicate}
    {v : Value} {o : Operand} (hoperator : Operator.ofToken? t.operator = some operator)
    (hcomparing : operator.comparing? = some comparing)
    (ho : operand t.attributeType v = .ok o) :
    (t.withValue v).sql = .ok (comparing t.attributeName o).text :=
  sql_eq_of_present_eq (t := t.withValue v) hoperator hcomparing rfl ho

/-- **An integer as a number and as text.** Take a test of an integer
attribute with an operator that compares, and an integer of a word. Given
as a JSON string, the integer is compared as it is. Given as a JSON
number, it is rounded to the nearest number of the format, and what is
compared is the shortest whole number for that. The two predicates are
the same exactly when the integer is its own shortest whole number, which
it is below `2 ^ 53`. -/
theorem sql_of_integer {n : Int} {t : Test} {operator : Operator}
    {comparing : String → Operand → Predicate} (hn : inWord n = true)
    (htype : t.attributeType = some .integer)
    (hoperator : Operator.ofToken? t.operator = some operator)
    (hcomparing : operator.comparing? = some comparing) :
    ∃ (text number : Value) (rank : Fin count) (m : Nat),
      Value.codec.ofText (String.ofList (quote (integerText n))) = .ok text ∧
      (t.withValue text).sql = .ok (comparing t.attributeName (.integer n)).text ∧
      Value.codec.ofText (integerText n) = .ok number ∧
      number = .number (.finite (decide (n < 0)) rank) ∧
      IsNearest rank (n.natAbs * unitsOfOne) ∧ IsShortest rank m ∧
      (t.withValue number).sql =
        .ok (comparing t.attributeName (.integer (signed (decide (n < 0)) m))).text ∧
      ((t.withValue number).sql = (t.withValue text).sql ↔ m = n.natAbs) ∧
      (n.natAbs < twoPow 53 → m = n.natAbs) := by
  have hlimit := natAbs_lt_of_inWord hn
  obtain ⟨rank, hrank⟩ : ∃ rank : Fin count, rank = rankOfNat n.natAbs :=
    ⟨⟨_, rankOfNat_lt_count hlimit⟩, rfl⟩
  have hnearest := (rankOfNat_eq_iff rank.isLt).mp hrank.symm
  have hnotDouble : t.attributeType ≠ some .double := by
    rw [htype]
    decide
  obtain ⟨m, hm, hchars⟩ :=
    exists_isShortest_numberOperand hlimit hrank hnotDouble (decide (n < 0))
  have htext : operand t.attributeType (.text (integerText n)) = .ok (.integer n) := by
    rw [htype, operand, textOperand, trim_integerText, readInteger?_integerText hn]
  have htextSql := sql_withValue hoperator hcomparing htext
  have hnumber : operand t.attributeType (.number (.finite (decide (n < 0)) rank)) =
      .ok (numberOperand t.attributeType (.finite (decide (n < 0)) rank)) := rfl
  have hnumberSql : (t.withValue (.number (.finite (decide (n < 0)) rank))).sql =
      .ok (comparing t.attributeName (.integer (signed (decide (n < 0)) m))).text :=
    (sql_withValue hoperator hcomparing hnumber).trans
      (congrArg Except.ok ((Operator.text_comparing_eq_iff hcomparing _ _ _).mpr hchars))
  refine ⟨_, _, rank, m, Value.ofText_quote _, htextSql, Value.ofText_integerText hn hrank, rfl,
    hnearest, hm, hnumberSql, ?_, fun hsmall => ?_⟩
  · -- the predicates differ in their operands, and these are written out
    rw [htextSql, hnumberSql, Except.ok.injEq, Operator.text_comparing_eq_iff hcomparing]
    constructor
    · intro h
      have hsame := integerText_injective (String.toList_inj.mp h)
      rw [← hsame, natAbs_signed]
    · rintro rfl
      rw [signed_natAbs]
  · exact (hrank ▸ hm).unique (isShortest_rankOfNat hsmall)

/-- A test of an integer attribute for being among values. -/
def idTest : Test := ⟨"1_id_in", 1, "id", " IN ", [], some .integer⟩

/-- The largest integers that are read exactly go through a number
unharmed, although they are no longer written as integers. -/
theorem idTest_sql_of_integer :
    inWord (-9007199254740991) = true ∧ idTest.attributeType = some .integer ∧
      Operator.ofToken? idTest.operator = some .oneOf ∧
      ∃ text number,
        Value.codec.ofText "\"-9007199254740991\"" = .ok text ∧
        Value.codec.ofText "-9007199254740991" = .ok number ∧
        (idTest.withValue text).sql = .ok "\"id\" IN (-9007199254740991)" ∧
        (idTest.withValue number).sql = .ok "\"id\" IN (-9007199254740991)" := by
  have hn : inWord (-9007199254740991) = true := by decide +kernel
  have hoperator : Operator.ofToken? idTest.operator = some .oneOf := by decide +kernel
  obtain ⟨text, number, -, m, htext, htextSql, hnumber, -, -, -, -, hsame, hsmall⟩ :=
    sql_of_integer hn (t := idTest) rfl hoperator rfl
  have hm : m = Int.natAbs (-9007199254740991) := hsmall (by decide +kernel)
  have hsql : (Predicate.member "id" false [.integer (-9007199254740991)]).text =
      "\"id\" IN (-9007199254740991)" := by decide +kernel
  have hwritten : integerText (-9007199254740991) = "-9007199254740991" := by decide +kernel
  have hquoted : String.ofList (quote "-9007199254740991") = "\"-9007199254740991\"" := by
    decide +kernel
  rw [hwritten] at hnumber htext
  rw [hquoted] at htext
  have htextSql' := htextSql.trans (congrArg Except.ok hsql)
  exact ⟨hn, rfl, hoperator, text, number, htext, hnumber, htextSql',
    (hsame.mpr hm).trans htextSql'⟩

/-- **Not every integer goes through a number**: `2 ^ 53 + 1` is compared
as `2 ^ 53`. -/
theorem not_forall_sql_of_integer :
    ¬ ∀ (n : Int) (t : Test) (operator : Operator) (comparing : String → Operand → Predicate)
      (text number : Value), inWord n = true → t.attributeType = some .integer →
      Operator.ofToken? t.operator = some operator → operator.comparing? = some comparing →
      Value.codec.ofText (String.ofList (quote (integerText n))) = .ok text →
      Value.codec.ofText (integerText n) = .ok number →
      (t.withValue text).sql = .ok (comparing t.attributeName (.integer n)).text ∧
        (t.withValue number).sql = .ok (comparing t.attributeName (.integer n)).text := by
  intro h
  have hn : inWord 9007199254740993 = true := by decide +kernel
  have hoperator : Operator.ofToken? idTest.operator = some .oneOf := by decide +kernel
  let rank : Fin count := ⟨1076 * binade, by decide +kernel⟩
  have hrank : rank = rankOfNat (Int.natAbs 9007199254740993) := by decide +kernel
  have hboth := h _ idTest .oneOf _ _ _ hn rfl hoperator rfl (Value.ofText_quote _)
    (Value.ofText_integerText hn hrank)
  exact absurd hboth.2 (by decide +kernel)

end Criteria.Test

end LayerQuery
