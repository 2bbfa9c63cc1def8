import LayerQuery.Json.Printer
import LayerQuery.Proofs.Reading
/-!
# What is written is read again

The written form of a sound document is one of its texts
(`spells_chars`), so reading it gives the document back (`read_text`).
Numerals are written by digits that spell them, strings by pieces that
stand for their characters, and lists and objects part by part.

Values are taken from a document to a limited depth. How deeply a
document is nested is `Document.depth`, and a document that is not nested
more deeply than the limit is taken as it is (`within_eq_self`).
-/

namespace LayerQuery

namespace Json

/-! ## Numerals -/

/-- The decimal form of a number spells it. -/
theorem spellsWhole_repr (n : Nat) : SpellsWhole n (Nat.repr n).toList := by
  rw [Nat.toList_repr]
  induction n using Nat.strongRecOn with
  | ind n ih =>
    have hchar : ∀ d : Digit, Nat.digitChar d.val = d.toChar := by decide
    rw [Nat.toDigits_eq_if (by omega)]
    split
    · next hsmall =>
      by_cases hzero : n = 0
      · subst hzero
        exact .zero
      · have hd : (⟨n, hsmall⟩ : Digit) ≠ Digit.zero := fun h => hzero (congrArg Fin.val h)
        have hdigits := SpellsWhole.digits [] hd
        have hvalue : Digit.value [(⟨n, hsmall⟩ : Digit)] = n := by simp [Digit.value]
        rw [hvalue] at hdigits
        rw [hchar ⟨n, hsmall⟩]
        exact hdigits
    · next hlarge =>
      have hlast : n % 10 < 10 := Nat.mod_lt n (by omega)
      have hfront := ih (n / 10) (by omega)
      generalize Nat.toDigits 10 (n / 10) = front at hfront
      generalize hquotient : n / 10 = quotient at hfront
      rw [hchar ⟨n % 10, hlast⟩]
      cases hfront with
      | zero => omega
      | @digits d ds hd =>
        have hdigits := SpellsWhole.digits (ds ++ [⟨n % 10, hlast⟩]) hd
        have hvalue : Digit.value (d :: (ds ++ [⟨n % 10, hlast⟩])) = n := by
          rw [← List.cons_append, Digit.value_append_singleton, ← hquotient]
          exact Nat.div_add_mod' n 10
        rw [hvalue, ← List.cons_append, Digit.chars_append_singleton] at hdigits
        exact hdigits

theorem spellsFraction_text (ds : List Digit) :
    SpellsFraction ds (Numeral.fractionText ds).toList := by
  cases ds with
  | nil => exact .none
  | cons d ds =>
    rw [Numeral.fractionText, List.isEmpty_cons, if_neg Bool.false_ne_true, String.toList_ofList]
    exact .digits d ds

theorem exists_digits_repr (n : Nat) :
    ∃ d ds, (Nat.repr n).toList = Digit.chars (d :: ds) ∧ Digit.value (d :: ds) = n := by
  generalize hcs : (Nat.repr n).toList = cs
  have hspells := hcs ▸ spellsWhole_repr n
  cases hspells with
  | zero => exact ⟨Digit.zero, [], rfl, rfl⟩
  | digits ds hd => exact ⟨_, ds, rfl, rfl⟩

theorem spellsExponent_text (exponent : Option Int) :
    SpellsExponent exponent (Numeral.exponentText exponent).toList := by
  cases exponent with
  | none => exact .none
  | some e =>
    obtain ⟨d, ds, hdigits, hvalue⟩ := exists_digits_repr e.natAbs
    have hmark : IsMark 'e' := .inl rfl
    rw [Numeral.exponentText]
    split
    · next hneg =>
      have hspells := SpellsExponent.digits hmark .minus d ds
      have he : signed true (Digit.value (d :: ds)) = e := by
        rw [hvalue, signed, if_pos rfl]
        omega
      rw [he, ← hdigits] at hspells
      rw [String.toList_append]
      exact hspells
    · next hneg =>
      have hspells := SpellsExponent.digits hmark .plus d ds
      have he : signed false (Digit.value (d :: ds)) = e := by
        rw [hvalue, signed, if_neg Bool.false_ne_true]
        omega
      rw [he, ← hdigits] at hspells
      rw [String.toList_append]
      exact hspells

/-- **The written form of a numeral spells it.** -/
theorem spellsNumeral_text (n : Numeral) : SpellsNumeral n n.text.toList := by
  have hspells := SpellsNumeral.mk n.negative (spellsWhole_repr n.whole)
    (spellsFraction_text n.fraction) (spellsExponent_text n.exponent)
  have hsign : (if n.negative then "-" else "").toList = signChars n.negative := by
    cases n.negative <;> rfl
  simpa [Numeral.text, hsign] using hspells

/-! ## Strings -/

theorem hexDigit?_hexChar {n : Nat} (h : n < 16) : Chars.hexDigit? (hexChar n) = some n := by
  have hall : ∀ k : Fin 16, Chars.hexDigit? (hexChar k.val) = some k.val := by decide
  exact hall ⟨n, h⟩

/-- A character is written by a piece that stands for it. -/
theorem exists_spellsPiece_escapeChar (c : Char) :
    ∃ p, SpellsPiece p (escapeChar c) ∧
      ∀ ps, Piece.chars? (p :: ps) = (Piece.chars? ps).map (c :: ·) := by
  unfold escapeChar
  split
  · exact ⟨_, .letter rfl, fun _ => rfl⟩
  · exact ⟨_, .letter rfl, fun _ => rfl⟩
  · exact ⟨_, .letter rfl, fun _ => rfl⟩
  · exact ⟨_, .letter rfl, fun _ => rfl⟩
  · exact ⟨_, .letter rfl, fun _ => rfl⟩
  · exact ⟨_, .letter rfl, fun _ => rfl⟩
  · exact ⟨_, .letter rfl, fun _ => rfl⟩
  · next hquotes hslash _ _ _ _ _ =>
    split
    · next hcontrol =>
      have hzero : Chars.hexDigit? '0' = some 0 := rfl
      have hhigh := hexDigit?_hexChar (n := c.toNat / 16) (by omega)
      have hlow := hexDigit?_hexChar (n := c.toNat % 16) (by omega)
      have hpiece := SpellsPiece.number hzero hzero hhigh hlow
      have hunit : ((0 * 16 + 0) * 16 + c.toNat / 16) * 16 + c.toNat % 16 = c.toNat := by omega
      rw [hunit] at hpiece
      refine ⟨_, hpiece, fun ps => ?_⟩
      have hfirst : ¬ IsFirstHalf c.toNat := by
        unfold IsFirstHalf
        omega
      have hsecond : ¬ IsSecondHalf c.toNat := by
        unfold IsSecondHalf
        omega
      rw [Piece.chars?_plain hfirst hsecond, Char.ofNat_toNat]
    · next hcontrol => exact ⟨_, .plain (Nat.not_lt.mp hcontrol) hquotes hslash, fun _ => rfl⟩

/-- **The quoted form of a text spells it.** -/
theorem spellsString_quote (s : String) : SpellsString (some s) (quote s) := by
  have hpieces (cs : List Char) :
      ∃ ps, SpellsPieces ps (cs.flatMap escapeChar) ∧ Piece.chars? ps = some cs := by
    induction cs with
    | nil => exact ⟨[], .nil, rfl⟩
    | cons c cs ih =>
      obtain ⟨ps, hps, hchars⟩ := ih
      obtain ⟨p, hp, hone⟩ := exists_spellsPiece_escapeChar c
      refine ⟨p :: ps, .cons hp hps, ?_⟩
      rw [hone, hchars, Option.map_some]
  obtain ⟨ps, hps, hchars⟩ := hpieces s.toList
  have hspells := SpellsString.mk hps
  rw [hchars, Option.map_some, String.ofList_toList] at hspells
  exact hspells

/-- So does that of what is no text. -/
theorem spellsString_quoteOrHalf (s : Option String) : SpellsString s (quoteOrHalf s) := by
  cases s with
  | some s => exact spellsString_quote s
  | none =>
    have hd : Chars.hexDigit? 'd' = some 13 := rfl
    have h8 : Chars.hexDigit? '8' = some 8 := rfl
    have h0 : Chars.hexDigit? '0' = some 0 := rfl
    exact .mk (.cons (.number hd h8 h0 h0) .nil)

/-! ## Documents -/

/-- Parts with commas between them are separated. -/
theorem separated_intercalate {α : Type} {spells : α → List Char → Prop} {write : α → List Char}
    {xs : List α} (h : ∀ x ∈ xs, spells x (write x)) :
    Separated (xs.map spells) ([','].intercalate (xs.map write)) := by
  have hpadded {x : α} (hx : spells x (write x)) : Padded (spells x) (write x) :=
    ⟨[], write x, [], isSpaces_nil, hx, isSpaces_nil, by simp⟩
  induction xs with
  | nil => exact isSpaces_nil
  | cons x xs ih =>
    obtain ⟨hx, hxs⟩ := List.forall_mem_cons.mp h
    cases xs with
    | nil => simpa [List.intercalate, Separated] using hpadded hx
    | cons y ys =>
      refine ⟨write x, _, hpadded hx, ih hxs, ?_⟩
      simp [List.intercalate]

namespace Document

/-- **The written form of a sound document spells it.** -/
theorem spells_chars {d : Document} (h : d.isSound = true) : d.Spells d.chars := by
  induction d using inside_induction with
  | null => rw [Spells, chars]
  | boolean b => rw [Spells, chars]
  | number n =>
    rw [Spells, chars]
    exact spellsNumeral_text n
  | string s =>
    rw [Spells, chars]
    exact spellsString_quoteOrHalf s
  | array items closed ih =>
    rw [isSound, allSound_eq_all, Bool.and_eq_true, List.all_eq_true] at h
    obtain ⟨hitems, rfl⟩ := h
    rw [Spells, spellsItems_eq_map, chars, itemChars_eq_map]
    have hall : ∀ d ∈ items, d.Spells d.chars := fun d hd => ih d hd (hitems d hd)
    exact ⟨rfl, _, separated_intercalate hall, rfl⟩
  | object members closed ih =>
    rw [isSound, membersSound_eq_all, Bool.and_eq_true, List.all_eq_true] at h
    obtain ⟨hmembers, rfl⟩ := h
    rw [Spells, spellsMembers_eq_map, chars, memberChars_eq_map]
    have hall : ∀ m ∈ members,
        SpellsMember m.1 (Spells m.2) (quoteOrHalf m.1 ++ ':' :: m.2.chars) := by
      intro m hm
      have hsound := (Bool.and_eq_true_iff.mp (hmembers m hm)).2
      exact ⟨_, [], [], _, spellsString_quoteOrHalf m.1, isSpaces_nil, isSpaces_nil, ih m hm hsound, rfl⟩
    exact ⟨rfl, _, separated_intercalate hall, rfl⟩
  | broken => cases h

/-- A sound document has a text. -/
theorem isTextOf_text {d : Document} (h : d.isSound = true) : d.IsTextOf d.text := by
  refine ⟨[], d.chars, [], isSpaces_nil, spells_chars h, isSpaces_nil, ?_⟩
  rw [text, String.toList_ofList, List.nil_append, List.append_nil]

/-- **What is written is read again.** -/
theorem read_text {d : Document} (h : d.isSound = true) : read d.text = ⟨d, true⟩ :=
  read_eq_iff_isTextOf.mpr (isTextOf_text h)

/-! ## Depth -/

mutual

/-- How many lists and objects lie inside one another. -/
def depth : Document → Nat
  | .array items _ => allDepth items + 1
  | .object members _ => membersDepth members + 1
  | _ => 0

/-- The depth of the deepest item. -/
def allDepth : List Document → Nat
  | [] => 0
  | d :: ds => max (depth d) (allDepth ds)

/-- The depth of the deepest value. -/
def membersDepth : List (Option String × Document) → Nat
  | [] => 0
  | (_, d) :: ms => max (depth d) (membersDepth ms)

end

theorem allDepth_le_iff {ds : List Document} {n : Nat} :
    allDepth ds ≤ n ↔ ∀ d ∈ ds, d.depth ≤ n := by
  induction ds with
  | nil => simp [allDepth]
  | cons d ds ih => rw [allDepth, Nat.max_le, ih, List.forall_mem_cons]

theorem membersDepth_le_iff {ms : List Member} {n : Nat} :
    membersDepth ms ≤ n ↔ ∀ m ∈ ms, m.2.depth ≤ n := by
  induction ms with
  | nil => simp [membersDepth]
  | cons m ms ih => rw [membersDepth, Nat.max_le, ih, List.forall_mem_cons]

/-- **What is not nested more deeply than the limit is taken as it is.** -/
theorem within_eq_self {d : Document} {n : Nat} (h : d.depth ≤ n) : d.within n = d := by
  induction d using inside_induction generalizing n with
  | array items closed ih =>
    cases n with
    | zero => cases h
    | succ n =>
      have hitems := allDepth_le_iff.mp (Nat.le_of_succ_le_succ h)
      rw [within, allWithin_eq_map, List.map_congr_left fun d hd => ih d hd (hitems d hd),
        List.map_id']
  | object members closed ih =>
    cases n with
    | zero => cases h
    | succ n =>
      have hmembers := membersDepth_le_iff.mp (Nat.le_of_succ_le_succ h)
      have hvalues : ∀ m ∈ members, (m.1, m.2.within n) = m :=
        fun m hm => Prod.ext rfl (ih m hm (hmembers m hm))
      rw [within, membersWithin_eq_map, List.map_congr_left hvalues, List.map_id']
  | null | boolean | number | string | broken => cases n <;> rfl

end Document

end Json

end LayerQuery
