import LayerQuery.Proofs.Formula
import LayerQuery.Proofs.Leaf
/-!
# Conditions as atoms

The text of a condition is one atom of whatever formula it stands in. A
predicate holds parentheses only around a list, and no word of it is a
connective: numerals lack the letters, and texts are behind quotes. A
call wraps what it asks for in a pair of parentheses, and stays an atom
however deep the chain goes (`isAtomText_of_query_eq_ok`).
-/

namespace LayerQuery

namespace Sql

/-! ## Tokens that leave the depth alone -/

/-- The token is neither a parenthesis nor a connective. -/
def Token.IsNeutral (t : Token) : Prop :=
  t ≠ .opening ∧ t ≠ .closing ∧ Level.factor.isBarred t = false

instance : DecidablePred Token.IsNeutral := fun t =>
  inferInstanceAs (Decidable (t ≠ .opening ∧ t ≠ .closing ∧ Level.factor.isBarred t = false))

theorem Token.IsNeutral.isClosed_cons {t : Token} {ts : List Token} (ht : t.IsNeutral)
    (hts : Level.factor.IsClosed ts) : Level.factor.IsClosed (t :: ts) := by
  obtain ⟨hopening, hclosing, hbarred⟩ := ht
  have hdepth : Level.factor.depth 0 t = some 0 := by
    cases t with
    | opening => exact absurd rfl hopening
    | closing => exact absurd rfl hclosing
    | _ => simp [Level.depth, hbarred]
  unfold Level.IsClosed
  rw [depthAfter_cons, hdepth]
  exact hts

theorem isClosed_nil (l : Level) : l.IsClosed [] := rfl

theorem isClosed_of_isNeutral {ts : List Token} (h : ∀ t ∈ ts, t.IsNeutral) :
    Level.factor.IsClosed ts := by
  induction ts with
  | nil => exact isClosed_nil _
  | cons t ts ih =>
    obtain ⟨ht, hts⟩ := List.forall_mem_cons.mp h
    exact ht.isClosed_cons (ih hts)

theorem isNeutral_space : (Token.blank ' ').IsNeutral := by decide

theorem isNeutral_comma : Token.comma.IsNeutral := by decide

theorem lowerChar_of_isDigit {c : Char} (h : c.isDigit = true) : Text.lowerChar c = c := by
  refine if_neg fun hcapital => ?_
  have hle : 'A'.toNat ≤ c.toNat := hcapital.1
  exact absurd (Nat.le_trans hle (Char.isDigit_iff_toNat.mp h).2) (by decide)

/-- Both connectives need a letter that no numeral has. -/
theorem lowerChar_of_isNumeralChar {c : Char} (h : isNumeralChar c = true) :
    Text.lowerChar c ≠ 'd' ∧ Text.lowerChar c ≠ 'r' := by
  rcases isDigit_or_of_isNumeralChar h with
    h | rfl | rfl | rfl | rfl | rfl | rfl | rfl | rfl | rfl
  · rw [lowerChar_of_isDigit h]
    constructor <;> rintro rfl <;> exact absurd h (by decide)
  all_goals decide

theorem isNeutral_of_isNumeralChar {w : List Char} (h : ∀ c ∈ w, isNumeralChar c = true) :
    (Token.word w).IsNeutral := by
  refine ⟨Token.noConfusion, Token.noConfusion, ?_⟩
  have hletter : ∀ d ∈ w.map Text.lowerChar, d ≠ 'd' ∧ d ≠ 'r' := by
    intro d hd
    obtain ⟨c, hc, rfl⟩ := List.mem_map.mp hd
    exact lowerChar_of_isNumeralChar (h c hc)
  simp only [Level.isBarred, Token.isKeyword, Bool.or_eq_false_iff, decide_eq_false_iff_not]
  constructor
  · intro hand
    exact (hletter 'd' (hand ▸ by decide)).1 rfl
  · intro hor
    exact (hletter 'r' (hor ▸ by decide)).2 rfl

theorem Operand.isNeutral_token (o : Operand) : o.token.IsNeutral := by
  cases o with
  | text s => exact ⟨Token.noConfusion, Token.noConfusion, rfl⟩
  | integer n => exact isNeutral_of_isNumeralChar fun c => isNumeralChar_of_mem_integerText
  | real x => exact isNeutral_of_isNumeralChar fun c => Binary64.isNumeralChar_of_mem_queryText
  | boolean b => cases b <;> decide

theorem isNeutral_of_mem_listed {ts : List Token} (h : ∀ t ∈ ts, t.IsNeutral) :
    ∀ t ∈ listed ts, t.IsNeutral := by
  induction ts using listed.induct with
  | case1 => exact h
  | case2 t => exact h
  | case3 t ts hne ih =>
    obtain ⟨ht, hts⟩ := List.forall_mem_cons.mp h
    rw [listed.eq_3 _ _ hne, List.forall_mem_cons, List.forall_mem_cons, List.forall_mem_cons]
    exact ⟨ht, isNeutral_comma, isNeutral_space, ih hts⟩

/-! ## Predicates -/

theorem isNeutral_literalToken (text : List Char) : (literalToken text).IsNeutral :=
  ⟨Token.noConfusion, Token.noConfusion, rfl⟩

theorem isNeutral_of_mem_negation (negated : Bool) : ∀ t ∈ negation negated, t.IsNeutral := by
  cases negated <;> decide

namespace Predicate

theorem isClosed_testTokens (p : Predicate) : Level.factor.IsClosed p.testTokens := by
  cases p with
  | compare column comparison operand =>
    have hsign : (Token.word comparison.sign.toList).IsNeutral := by
      cases comparison <;> decide
    have hoperand := operand.isNeutral_token.isClosed_cons (isClosed_nil _)
    exact hsign.isClosed_cons (isNeutral_space.isClosed_cons hoperand)
  | member column negated operands =>
    have hlisted : Level.factor.IsClosed (listed (operands.map Operand.token)) := by
      refine isClosed_of_isNeutral (isNeutral_of_mem_listed fun t ht => ?_)
      obtain ⟨o, -, rfl⟩ := List.mem_map.mp ht
      exact o.isNeutral_token
    have hin : Level.factor.IsClosed [.word "IN".toList, .blank ' '] :=
      isClosed_of_isNeutral (by decide)
    have hnegation := isClosed_of_isNeutral (isNeutral_of_mem_negation negated)
    exact hnegation.append (hin.append hlisted.parenthesized)
  | like column negated pattern =>
    have hword : Level.factor.IsClosed [.word "LIKE".toList, .blank ' '] :=
      isClosed_of_isNeutral (by decide)
    have hescape : Level.factor.IsClosed [.blank ' ', .word "ESCAPE".toList, .blank ' ',
        literalToken ['\\']] := isClosed_of_isNeutral (by decide)
    have hpattern := (isNeutral_literalToken pattern.chars).isClosed_cons hescape
    have hnegation := isClosed_of_isNeutral (isNeutral_of_mem_negation negated)
    exact hnegation.append (hword.append hpattern)
  | isNull column negated =>
    simp only [testTokens]
    cases negated <;> exact isClosed_of_isNeutral (by decide)

theorem exists_last_testTokens (p : Predicate) :
    ∃ front last, p.testTokens = front ++ [last] ∧ last.isBlank = false := by
  cases p with
  | compare column comparison operand =>
    refine ⟨[.word comparison.sign.toList, .blank ' '], operand.token, rfl, ?_⟩
    cases operand <;> rfl
  | member column negated operands =>
    exact ⟨negation negated ++ .word "IN".toList :: .blank ' ' :: .opening ::
      listed (operands.map Operand.token), .closing, by simp [testTokens], rfl⟩
  | like column negated pattern =>
    exact ⟨negation negated ++ [.word "LIKE".toList, .blank ' ', literalToken pattern.chars,
      .blank ' ', .word "ESCAPE".toList, .blank ' '], literalToken ['\\'],
      by simp [testTokens], rfl⟩
  | isNull column negated =>
    exact ⟨.word "IS".toList :: .blank ' ' :: negation negated, .word "NULL".toList, rfl, rfl⟩

end Predicate

/-! ## Atoms -/

/-- The text is read as one atom, and has no blanks at its ends. -/
def IsAtomText (text : String) : Prop :=
  ∃ ts, scan text.toList = some ts ∧ strip ts = ts ∧ IsAtom ts

/-- **A predicate is an atom.** -/
theorem Predicate.isAtomText (p : Predicate) : IsAtomText p.text := by
  refine ⟨p.tokens, p.scan_text, ?_, List.cons_ne_nil _ _, ?_, ?_⟩
  · obtain ⟨front, last, htest, hlast⟩ := p.exists_last_testTokens
    unfold tokens
    rw [htest]
    exact strip_eq_self rfl hlast (.blank ' ' :: front)
  · exact fun h => Token.noConfusion (Option.some.inj h)
  · have hcolumn : p.columnToken.IsNeutral := ⟨Token.noConfusion, Token.noConfusion, rfl⟩
    exact hcolumn.isClosed_cons (isNeutral_space.isClosed_cons p.isClosed_testTokens)

end Sql

open Sql

namespace Relations

/-- The tokens of a call, around those of what it asks for. -/
def hopTokens (hop : FeatureTypeId × FeatureTypeId) (inner : List Token) : List Token :=
  .word "RELATED_LAYER".toList :: .opening ::
    (.word (integerText hop.1.toInt).toList :: .comma :: .blank ' ' ::
      .word (integerText hop.2.toInt).toList :: .comma :: .blank ' ' :: inner ++ [.closing])

theorem scan_hopCall {hop : FeatureTypeId × FeatureTypeId} {inner : String} {ts : List Token}
    (h : scan inner.toList = some ts) :
    scan (hopCall hop inner).toList = some (hopTokens hop ts) := by
  have hname : "RELATED_LAYER(".toList = "RELATED_LAYER".toList ++ ['('] := by decide
  have hcall : scan "RELATED_LAYER".toList = some [.word "RELATED_LAYER".toList] := by decide
  have hnumber : ∀ n : Int, scan (integerText n).toList = some [.word (integerText n).toList] :=
    fun n => Operand.scan_chars (.integer n)
  -- from the innermost part outwards, as the call is written
  have hinner := scan_cons mark?_space (scan_append_singleton h mark?_closing)
  have hchild := scan_cons mark?_space (scan_append_cons (hnumber hop.2.toInt) mark?_comma hinner)
  have hparent := scan_append_cons (hnumber hop.1.toInt) mark?_comma hchild
  rw [toList_hopCall, hname, List.append_assoc, List.singleton_append]
  exact scan_append_cons hcall mark?_opening hparent

/-- **A call of an atom is an atom**, and so is every nest of calls. -/
theorem isAtomText_hopCall {inner : String} (h : IsAtomText inner)
    (hop : FeatureTypeId × FeatureTypeId) : IsAtomText (hopCall hop inner) := by
  obtain ⟨ts, hscan, -, -, -, hclosed⟩ := h
  have hstrip : strip (hopTokens hop ts) = hopTokens hop ts := by
    unfold hopTokens
    rw [← List.cons_append]
    exact strip_eq_self rfl rfl _
  refine ⟨hopTokens hop ts, scan_hopCall hscan, hstrip, List.cons_ne_nil _ _,
    fun h => Token.noConfusion (Option.some.inj h), ?_⟩
  have hnumber : ∀ (n : Int) {us : List Token}, Level.factor.IsClosed us →
      Level.factor.IsClosed (.word (integerText n).toList :: .comma :: .blank ' ' :: us) :=
    fun n _ hus => (Operand.isNeutral_token (.integer n)).isClosed_cons
      (isNeutral_comma.isClosed_cons (isNeutral_space.isClosed_cons hus))
  have hname : (Token.word "RELATED_LAYER".toList).IsNeutral := by decide
  exact hname.isClosed_cons (hnumber hop.1.toInt (hnumber hop.2.toInt hclosed)).parenthesized

theorem isAtomText_nested {filter : String} (h : IsAtomText filter) (path : List FeatureTypeId) :
    IsAtomText (nested path filter) := by
  unfold nested
  induction hops path with
  | nil => exact h
  | cons hop rest ih => exact isAtomText_hopCall ih hop

end Relations

/-- **The query of a condition is an atom.** -/
theorem Criteria.Condition.isAtomText_of_query_eq_ok {c : Condition} {q : String}
    (h : c.query = .ok q) : IsAtomText q := by
  rw [Condition.query_eq] at h
  obtain ⟨t, -, h⟩ := eq_ok_of_bind_eq_ok h
  obtain ⟨filter, hfilter, rfl⟩ := eq_ok_of_map_eq_ok h
  obtain ⟨p, -, rfl⟩ := eq_ok_of_map_eq_ok hfilter
  exact Relations.isAtomText_nested p.isAtomText _

end LayerQuery
