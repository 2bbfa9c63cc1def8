import LayerQuery.Proofs.Lists
import LayerQuery.Proofs.TypedNumbers
import LayerQuery.Sql.Compile
/-!
# When a test compiles, and what is said if it does not

A test fails for an unknown token, or for its values. The token is
looked up first, and what the values have to be then depends on the
operator alone: `Test.Accepts` is the table of what each operator takes,
and `Test.Complains` says which problem is reported otherwise. Both are
said of the values as they are given. Whether a text suits the type of
the attribute is a matter of its spelling (`Value.Suits`).

Values are read one after the other and before they are counted. So the
first one that does not suit is reported, whatever their number, and only
values that all suit can be too many. The compiler does what the two
tables say, and nothing else (`sql_outcome`).
-/

namespace LayerQuery

open Criteria Sql

/-! ## Tokens -/

namespace Sql.Operator

theorem mem_all (o : Operator) : o ∈ all := by
  cases o <;> decide

/-- No token belongs to two operators. -/
theorem eq_of_mem_tokens {o o' : Operator} {token : String} (h : token ∈ o.tokens)
    (h' : token ∈ o'.tokens) : o = o' := by
  have hall : ∀ o ∈ all, ∀ o' ∈ all, ∀ token ∈ o.tokens, token ∈ o'.tokens → o = o' := by
    decide +kernel
  exact hall o o.mem_all o' o'.mem_all token h h'

/-- **An operator goes by its tokens**, without outer blanks and in any case. -/
theorem ofToken?_eq_some_iff {token : String} {o : Operator} :
    ofToken? token = some o ↔ Text.keyword token ∈ o.tokens := by
  constructor
  · intro h
    simpa using List.find?_some h
  · intro h
    cases hfound : ofToken? token with
    | none =>
      have hnone := List.find?_eq_none.mp hfound o o.mem_all
      simp [h] at hnone
    | some o' =>
      have hmem : Text.keyword token ∈ o'.tokens := by simpa using List.find?_some hfound
      rw [eq_of_mem_tokens hmem h]

theorem ofToken?_eq_none_iff {token : String} :
    ofToken? token = none ↔ ∀ o : Operator, Text.keyword token ∉ o.tokens := by
  simp only [← ofToken?_eq_some_iff, Option.eq_none_iff_forall_ne_some, ne_eq]

end Sql.Operator

/-! ## Values and types -/

namespace Criteria

/-- A text suits the type of an attribute. It can fail to only where the type has a spelling of its
own. Blanks around it do not matter. -/
def TextSuits : Option AttributeType → String → Prop
  | some .integer, s => ∃ n, SpellsInteger n (Text.trim s).toList ∧ inWord n = true
  | some .double, s => ∃ x, SpellsReal x (Text.trim s).toList
  | some .boolean, s => Text.keyword s = "true" ∨ Text.keyword s = "false"
  | _, _ => True

/-- A value suits the type of an attribute; one that is no text always does. -/
def Value.Suits (type : Option AttributeType) : Value → Prop
  | .text s => TextSuits type s
  | .boolean _ | .number _ => True

/-- What is wrong with a value that does not suit the type. -/
inductive Value.Misfit : Option AttributeType → Value → ValueProblem → Prop
  | integer {s : String} (h : ¬ Suits (some .integer) (.text s)) :
    Misfit (some .integer) (.text s) (.notInteger s)
  | double {s : String} (h : ¬ Suits (some .double) (.text s)) :
    Misfit (some .double) (.text s) (.notNumber s)
  | boolean {s : String} (h : ¬ Suits (some .boolean) (.text s)) :
    Misfit (some .boolean) (.text s) (.notBoolean s)

namespace Value.Misfit

variable {type : Option AttributeType} {v : Value} {p q : ValueProblem}

/-- A type has one complaint about a value. -/
theorem unique (hp : v.Misfit type p) (hq : v.Misfit type q) : p = q := by
  cases hp <;> cases hq <;> rfl

theorem not_suits (h : v.Misfit type p) : ¬ v.Suits type := by
  cases h <;> assumption

/-- A value that does not suit is still a value. -/
theorem ne_lack (h : v.Misfit type p) : p ≠ .noValue ∧ p ≠ .noPattern := by
  cases h <;> exact ⟨nofun, nofun⟩

end Value.Misfit

namespace Test

theorem exists_readBoolean?_iff {s : String} :
    (∃ b, readBoolean? s = some b) ↔ Text.keyword s = "true" ∨ Text.keyword s = "false" := by
  unfold readBoolean?
  simp only
  split
  · next h => exact iff_of_true ⟨true, rfl⟩ (.inl h)
  · next htrue =>
    split
    · next h => exact iff_of_true ⟨false, rfl⟩ (.inr h)
    · next hfalse => exact iff_of_false (by simp) (not_or.mpr ⟨htrue, hfalse⟩)

theorem exists_textOperand_iff (type : Option AttributeType) (s : String) :
    (∃ o, textOperand type s = .ok o) ↔ TextSuits type s := by
  cases type with
  | none => exact iff_of_true ⟨.text s, rfl⟩ trivial
  | some type =>
    cases type with
    | integer =>
      simp only [TextSuits, ← readInteger?_eq_some_iff, textOperand]
      cases readInteger? (Text.trim s) <;> simp
    | double =>
      simp only [TextSuits, ← readNumber?_eq_some_iff, textOperand]
      cases readNumber? (Text.trim s) <;> simp
    | boolean =>
      simp only [TextSuits, ← exists_readBoolean?_iff, textOperand]
      cases readBoolean? s <;> simp
    | string | date | timestamp | geometry | null => exact iff_of_true ⟨.text s, rfl⟩ trivial

/-- **A value has an operand if it suits the type.** -/
theorem exists_operand_iff {type : Option AttributeType} {v : Value} :
    (∃ o, operand type v = .ok o) ↔ v.Suits type := by
  cases v with
  | boolean b => exact iff_of_true ⟨.boolean b, rfl⟩ trivial
  | number x => exact iff_of_true ⟨numberOperand type x, rfl⟩ trivial
  | text s => exact exists_textOperand_iff type s

/-- The problem with a value that has no operand. -/
theorem misfit_of_operand_eq_error {type : Option AttributeType} {v : Value} {p : ValueProblem}
    (h : operand type v = .error p) : v.Misfit type p := by
  have hnot : ¬ v.Suits type := by
    rw [← exists_operand_iff, h]
    simp
  cases v with
  | boolean b => cases h
  | number x => cases h
  | text s =>
    change textOperand type s = .error p at h
    unfold textOperand at h
    -- the types with a spelling, and the rest
    split at h
    · split at h
      · cases h
      · obtain rfl := Except.error.inj h
        exact .integer hnot
    · split at h
      · cases h
      · obtain rfl := Except.error.inj h
        exact .double hnot
    · split at h
      · cases h
      · obtain rfl := Except.error.inj h
        exact .boolean hnot
    · cases h

theorem operand_eq_error_iff {type : Option AttributeType} {v : Value} {p : ValueProblem} :
    operand type v = .error p ↔ v.Misfit type p := by
  constructor
  · exact misfit_of_operand_eq_error
  · intro h
    cases hv : operand type v with
    | ok o => exact absurd (exists_operand_iff.mp ⟨o, hv⟩) h.not_suits
    | error q => rw [h.unique (misfit_of_operand_eq_error hv)]

/-! ## What each operator takes -/

/-- All values that are there suit the type of the attribute. -/
def AllSuit (t : Test) : Prop :=
  ∀ v ∈ present t.values, v.Suits t.attributeType

/-- There are values, and they all suit the type. -/
def SomeSuit (t : Test) : Prop :=
  present t.values ≠ [] ∧ t.AllSuit

/-- The attribute is a truth value, and no value is there. -/
def IsBlankBoolean (t : Test) : Prop :=
  t.attributeType = some .boolean ∧ present t.values = []

/-- What the values have to be for an operator. -/
def Accepts (t : Test) : Operator → Prop
  | .isNull | .isNotNull | .isTrue | .isFalse => True
  | .equal | .unequal => t.IsBlankBoolean ∨ t.SomeSuit
  | .oneOf | .noneOf => t.SomeSuit
  | .greater | .less | .atLeast | .atMost => ∃ v, present t.values = [v] ∧ v.Suits t.attributeType
  | .contains | .notContains | .startsWith | .endsWith =>
    String.join ((present t.values).map Value.display) ≠ ""

/-- The first value that does not suit the type, and what is wrong with it. -/
def FirstMisfit (t : Test) (problem : ValueProblem) : Prop :=
  ∃ front v rest, present t.values = front ++ v :: rest ∧
    (∀ w ∈ front, w.Suits t.attributeType) ∧ v.Misfit t.attributeType problem

/-- A value is wanted and none is there, or one of them does not suit. -/
def LacksOperands (t : Test) (problem : ValueProblem) : Prop :=
  (present t.values = [] ∧ problem = .noValue) ∨ t.FirstMisfit problem

/-- The values suit, and there are more than one. -/
def HasTooMany (t : Test) (problem : ValueProblem) : Prop :=
  t.AllSuit ∧ 1 < (present t.values).length ∧ problem = .notSingle (present t.values).length

/-- What is wrong with the values for an operator. -/
def Complains (t : Test) : Operator → ValueProblem → Prop
  | .isNull, _ | .isNotNull, _ | .isTrue, _ | .isFalse, _ => False
  | .equal, problem | .unequal, problem => ¬ t.IsBlankBoolean ∧ t.LacksOperands problem
  | .oneOf, problem | .noneOf, problem => t.LacksOperands problem
  | .greater, problem | .less, problem | .atLeast, problem | .atMost, problem =>
    t.LacksOperands problem ∨ t.HasTooMany problem
  | .contains, problem | .notContains, problem | .startsWith, problem | .endsWith, problem =>
    String.join ((present t.values).map Value.display) = "" ∧ problem = .noPattern

/-! ## The tables cover everything -/

variable {t : Test}

theorem mapM_operand_eq_error_iff {p : ValueProblem} :
    (present t.values).mapM (operand t.attributeType) = .error p ↔ t.FirstMisfit p := by
  simp only [mapM_eq_error_iff, exists_operand_iff, operand_eq_error_iff, FirstMisfit]

theorem allSuit_iff : t.AllSuit ↔ ∀ p, ¬ t.FirstMisfit p := by
  simp only [AllSuit, ← exists_operand_iff]
  rw [← exists_mapM_eq_ok_iff, exists_eq_ok_iff]
  simp only [← mapM_operand_eq_error_iff, ne_eq]

theorem someSuit_iff : t.SomeSuit ↔ ∀ p, ¬ t.LacksOperands p := by
  simp only [SomeSuit, allSuit_iff, LacksOperands, not_or, forall_and, not_and]
  refine and_congr_left fun _ => ⟨fun h p hnil => absurd hnil h, fun h hnil => h _ hnil rfl⟩

/-- **What an operator does not take it complains about.** -/
theorem accepts_iff (o : Operator) : t.Accepts o ↔ ∀ p, ¬ t.Complains o p := by
  cases o with
  | isNull | isNotNull | isTrue | isFalse => exact iff_of_true trivial fun _ => not_false
  | equal | unequal =>
    simp only [Accepts, Complains, someSuit_iff]
    by_cases h : t.IsBlankBoolean <;> simp [h]
  | greater | less | atLeast | atMost =>
    have hsingle : (∃ v, present t.values = [v] ∧ v.Suits t.attributeType) ↔
        t.SomeSuit ∧ ∀ p, ¬ t.HasTooMany p := by
      unfold SomeSuit HasTooMany AllSuit
      match hvalues : present t.values with
      | [] => simp
      | [v] => simp
      | v :: w :: rest => simp +contextual
    simp only [Accepts, Complains, hsingle, someSuit_iff, not_or, forall_and]
  | contains | notContains | startsWith | endsWith =>
    simp only [Accepts, Complains, not_and]
    exact ⟨fun h p hempty => absurd hempty h, fun h hempty => h _ hempty rfl⟩
  | oneOf | noneOf => exact someSuit_iff

/-! ## The compiler goes by the tables -/

/-- Values are read before it is asked whether there are any. -/
theorem operands_eq_error_iff {e : CompileError} :
    t.operands = .error e ↔ ∃ p, e = t.invalid p ∧ t.LacksOperands p := by
  unfold operands LacksOperands
  simp only [← mapM_operand_eq_error_iff]
  cases hall : (present t.values).mapM (operand t.attributeType) with
  | error p =>
    have hne : present t.values ≠ [] := by
      intro hnil
      rw [hnil] at hall
      cases hall
    simp [Except.mapError, bind, Except.bind, hne, eq_comm]
  | ok os =>
    have hempty : os.isEmpty = true ↔ present t.values = [] := by
      rw [List.isEmpty_iff, ← List.length_eq_zero_iff, ← (mapM_eq_ok_iff.mp hall).length_eq,
        List.length_eq_zero_iff]
    simp only [Except.mapError, bind, Except.bind, hempty, reduceCtorEq, or_false]
    split
    · next hnil => simp [hnil, eq_comm]
    · next hne => simp [hne]

theorem operands_eq_ok {os : List Operand} (h : t.operands = .ok os) :
    List.Forall₂ (fun v o => operand t.attributeType v = .ok o) (present t.values) os ∧
      os ≠ [] := by
  obtain ⟨os', hall, h⟩ := eq_ok_of_bind_eq_ok h
  split at h
  · cases h
  · rename_i hne
    obtain rfl := Except.ok.inj h
    exact ⟨mapM_eq_ok_iff.mp (eq_ok_of_mapError_eq_ok hall), by simpa using hne⟩

theorem length_of_operands_eq_ok {os : List Operand} (h : t.operands = .ok os) :
    os.length = (present t.values).length :=
  (operands_eq_ok h).1.length_eq.symm

theorem someSuit_of_operands_eq_ok {os : List Operand} (h : t.operands = .ok os) : t.SomeSuit := by
  rw [someSuit_iff]
  intro p hp
  cases h.symm.trans (operands_eq_error_iff.mpr ⟨p, rfl, hp⟩)

/-- They are counted last. -/
theorem singleOperand_eq_error_iff {e : CompileError} :
    t.singleOperand = .error e ↔
      ∃ p, e = t.invalid p ∧ (t.LacksOperands p ∨ t.HasTooMany p) := by
  unfold singleOperand
  cases hos : t.operands with
  | error e' =>
    -- without operands there is nothing to count
    have hfew : ∀ p, ¬ t.HasTooMany p := by
      rintro p ⟨hsuit, hcount, -⟩
      obtain ⟨q, -, hq⟩ := operands_eq_error_iff.mp hos
      exact someSuit_iff.mp ⟨List.ne_nil_of_length_pos (by omega), hsuit⟩ q hq
    simp only [hfew, or_false, ← operands_eq_error_iff, hos, bind, Except.bind,
      Except.error.injEq]
  | ok os =>
    have hsuits := someSuit_of_operands_eq_ok hos
    have hlength := length_of_operands_eq_ok hos
    simp only [someSuit_iff.mp hsuits, false_or, HasTooMany, hsuits.2, true_and, ← hlength]
    match os with
    | [] => exact absurd (List.length_eq_zero_iff.mp hlength.symm) hsuits.1
    | [o] => simp [bind, Except.bind]
    | o :: o' :: os => simp [bind, Except.bind, eq_comm]

theorem equality_eq_error_iff {negated : Bool} {e : CompileError} :
    t.equality negated = .error e ↔ t.operands = .error e := by
  unfold equality
  cases t.operands with
  | error e' => simp only [bind, Except.bind, Except.error.injEq]
  | ok os =>
    refine iff_of_false ?_ (by simp)
    match os with
    | [] => simp [bind, Except.bind]
    | [o] => simp [bind, Except.bind]
    | o :: o' :: os => simp [bind, Except.bind]

theorem soughtText_eq_error_iff {e : CompileError} :
    t.soughtText = .error e ↔ ∃ p, e = t.invalid p ∧ joinedText t.values = "" ∧ p = .noPattern := by
  unfold soughtText
  simp only
  split
  · next h => simp [h, eq_comm]
  · next h => simp [h]

theorem present_eq_nil_iff (values : List (Option Value)) :
    present values = [] ↔ values.all Option.isNone = true := by
  simp [present, List.filterMap_eq_nil_iff, List.all_eq_true]

theorem isBare_iff : t.isBare = true ↔ t.IsBlankBoolean := by
  rw [isBare, Bool.and_eq_true, beq_iff_eq, ← present_eq_nil_iff]
  exact Iff.rfl

/-- **An operator fails with what it complains about.** -/
theorem predicateOf_eq_error_iff (o : Operator) {e : CompileError} :
    t.predicateOf o = .error e ↔ ∃ p, e = t.invalid p ∧ t.Complains o p := by
  cases o with
  | isNull | isNotNull | isTrue | isFalse => simp [predicateOf, Complains]
  | equal | unequal =>
    simp only [predicateOf, Complains]
    split
    · next hbare => simp [isBare_iff.mp hbare]
    · next hbare =>
      have hblank : ¬ t.IsBlankBoolean := fun h => hbare (isBare_iff.mpr h)
      simp only [hblank, not_false_eq_true, true_and]
      exact equality_eq_error_iff.trans operands_eq_error_iff
  | greater | less | atLeast | atMost => exact map_eq_error_iff.trans singleOperand_eq_error_iff
  | contains | notContains | startsWith | endsWith =>
    exact map_eq_error_iff.trans soughtText_eq_error_iff
  | oneOf | noneOf => exact map_eq_error_iff.trans operands_eq_error_iff

theorem exists_predicateOf_iff (o : Operator) :
    (∃ p, t.predicateOf o = .ok p) ↔ t.Accepts o := by
  rw [exists_eq_ok_iff, accepts_iff]
  simp only [predicateOf_eq_error_iff, ne_eq]
  exact ⟨fun h p hp => h _ ⟨p, rfl, hp⟩, fun h _ ⟨p, _, hp⟩ => h p hp⟩

theorem sql_eq_of_ofToken? {o : Operator} (h : Operator.ofToken? t.operator = some o) :
    t.sql = (t.predicateOf o).map Predicate.text := by
  rw [sql, predicate, h]

theorem sql_eq_of_mem_tokens {o : Operator} (h : Text.keyword t.operator ∈ o.tokens) :
    t.sql = (t.predicateOf o).map Predicate.text :=
  sql_eq_of_ofToken? (Operator.ofToken?_eq_some_iff.mpr h)

/-- A test that compiles has an operator, and the operator a predicate. -/
theorem exists_predicateOf_of_sql_eq_ok {q : String} (h : t.sql = .ok q) :
    ∃ o p, Text.keyword t.operator ∈ o.tokens ∧ t.predicateOf o = .ok p ∧ q = p.text := by
  obtain ⟨p, hp, rfl⟩ := eq_ok_of_map_eq_ok h
  unfold predicate at hp
  split at hp
  · next o htoken => exact ⟨o, p, Operator.ofToken?_eq_some_iff.mp htoken, hp, rfl⟩
  · cases hp

theorem sql_eq_unsupported_iff {token : String} :
    t.sql = .error (.unsupported token) ↔
      token = t.operator ∧ ∀ o : Operator, Text.keyword t.operator ∉ o.tokens := by
  rw [← Operator.ofToken?_eq_none_iff, sql, map_eq_error_iff, predicate]
  cases Operator.ofToken? t.operator with
  | none => simp [eq_comm]
  | some o =>
    refine iff_of_false ?_ (by simp)
    simp only [predicateOf_eq_error_iff]
    rintro ⟨p, hp, -⟩
    cases hp

/-- **What comes of a test.** It fails for its token exactly if no operator goes by it. If one
does, the test compiles exactly if the values are what the operator takes, and otherwise it fails
over the values: the failure names the attribute and the token as they are given and carries the
problem that the operator complains about. -/
theorem sql_outcome (t : Test) :
    (∀ token, t.sql = .error (.unsupported token) ↔
      token = t.operator ∧ ∀ o : Operator, Text.keyword t.operator ∉ o.tokens) ∧
    ∀ o : Operator, Text.keyword t.operator ∈ o.tokens →
      ((∃ q, t.sql = .ok q) ↔ t.Accepts o) ∧
      ∀ e, t.sql = .error e ↔
        ∃ p, e = .invalidValue t.attributeName t.operator p ∧ t.Complains o p := by
  refine ⟨fun token => sql_eq_unsupported_iff, fun o ho => ?_⟩
  rw [sql_eq_of_mem_tokens ho]
  constructor
  · rw [← exists_predicateOf_iff]
    constructor
    · rintro ⟨q, hq⟩
      obtain ⟨p, hp, -⟩ := eq_ok_of_map_eq_ok hq
      exact ⟨p, hp⟩
    · rintro ⟨p, hp⟩
      exact ⟨p.text, by rw [hp]; rfl⟩
  · intro e
    exact map_eq_error_iff.trans (predicateOf_eq_error_iff o)

/-- A comparison of order for an attribute of integers. -/
def ageTest (values : List (Option Value)) : Test :=
  ⟨"1_age_gte", 1, "age", " GTE ", values, some .integer⟩

/-- A search for what the values say together. -/
def noteTest (values : List (Option Value)) : Test :=
  ⟨"1_note_like", 1, "note", "Like", values, none⟩

/-- One integer is compared with. Of two values of which the second is no
integer this is said before that there are two. Texts are searched for
unless they say nothing. -/
theorem ageTest_outcome :
    (Text.keyword " GTE " ∈ Operator.atLeast.tokens ∧
      (ageTest [some (.text " +07 "), none]).sql = .ok "\"age\" >= 7" ∧
      (ageTest [some (.text " +07 "), none]).Accepts .atLeast ∧
      (ageTest [some (.text " +07 "), none, some (.text "ten")]).sql =
        .error (.invalidValue "age" " GTE " (.notInteger "ten")) ∧
      (ageTest [some (.text " +07 "), none, some (.text "ten")]).Complains .atLeast
        (.notInteger "ten")) ∧
    Text.keyword "Like" ∈ Operator.contains.tokens ∧
      (noteTest [some (.text "50"), none, some (.text "%")]).sql =
        .ok "\"note\" LIKE E'%50\\\\%%' ESCAPE E'\\\\'" ∧
      (noteTest [some (.text "50"), none, some (.text "%")]).Accepts .contains ∧
      (noteTest [some (.text ""), none]).sql = .error (.invalidValue "note" "Like" .noPattern) ∧
      (noteTest [some (.text ""), none]).Complains .contains .noPattern := by
  have hage : Text.keyword " GTE " ∈ Operator.atLeast.tokens := by decide +kernel
  have hnote : Text.keyword "Like" ∈ Operator.contains.tokens := by decide +kernel
  have hseven : (ageTest [some (.text " +07 "), none]).sql = .ok "\"age\" >= 7" := by decide +kernel
  have hten : (ageTest [some (.text " +07 "), none, some (.text "ten")]).sql =
      .error (.invalidValue "age" " GTE " (.notInteger "ten")) := by decide +kernel
  have hfifty : (noteTest [some (.text "50"), none, some (.text "%")]).sql =
      .ok "\"note\" LIKE E'%50\\\\%%' ESCAPE E'\\\\'" := by decide +kernel
  have hnothing : (noteTest [some (.text ""), none]).sql =
      .error (.invalidValue "note" "Like" .noPattern) := by decide +kernel
  have hnumbers (values : List (Option Value)) := (sql_outcome (ageTest values)).2 .atLeast hage
  have htexts (values : List (Option Value)) := (sql_outcome (noteTest values)).2 .contains hnote
  obtain ⟨p, hp, hcomplains⟩ := ((hnumbers _).2 _).mp hten
  obtain ⟨p', hp', hcomplains'⟩ := ((htexts _).2 _).mp hnothing
  obtain rfl : ValueProblem.notInteger "ten" = p := (CompileError.invalidValue.inj hp).2.2
  obtain rfl : ValueProblem.noPattern = p' := (CompileError.invalidValue.inj hp').2.2
  exact ⟨⟨hage, hseven, (hnumbers _).1.mp ⟨_, hseven⟩, hten, hcomplains⟩, hnote, hfifty,
    (htexts _).1.mp ⟨_, hfifty⟩, hnothing, hcomplains'⟩

end Test

end Criteria

end LayerQuery
