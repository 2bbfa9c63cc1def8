import LayerQuery.Number.Spelling
import Mathlib.Data.List.Basic
import Std.Data.String.ToNat
/-!
# What numerals are made of

Numerals stand in a query without quotes, so what matters there is which
characters they may hold: digits, signs, a point, and the letters of an
exponent and of the three names that stand for no finite number
(`isNumeralChar`). None of them is a blank, a quote, a comma or a
parenthesis. The decimal form of an integer determines it
(`integerText_injective`).
-/

namespace LayerQuery

/-- The characters that numerals are made of. -/
def isNumeralChar (c : Char) : Bool :=
  c.isDigit || ['+', '-', '.', 'e', 'i', 'n', 'f', 'N', 'a'].contains c

theorem isNumeralChar_of_isDigit {c : Char} (h : c.isDigit = true) : isNumeralChar c = true := by
  simp [isNumeralChar, h]

/-- A numeral character is a digit or one of the others. -/
theorem isDigit_or_of_isNumeralChar {c : Char} (h : isNumeralChar c = true) :
    c.isDigit = true ∨ c = '+' ∨ c = '-' ∨ c = '.' ∨ c = 'e' ∨ c = 'i' ∨ c = 'n' ∨ c = 'f' ∨
      c = 'N' ∨ c = 'a' := by
  simpa only [isNumeralChar, Bool.or_eq_true, List.contains_cons, List.contains_nil,
    Bool.or_false, beq_iff_eq] using h

/-! ## Digits -/

namespace Digit

theorem eq_toChar_of_ofChar? {c : Char} {d : Digit} (h : ofChar? c = some d) : c = d.toChar := by
  unfold ofChar? at h
  split at h
  · next hc =>
    obtain rfl := Option.some.inj h
    have hnat : 48 + (c.toNat - 48) = c.toNat := by omega
    simp only [toChar, hnat, Char.ofNat_toNat]
  · cases h

theorem toChar_ne_sign : ∀ d : Digit, d.toChar ≠ '-' ∧ d.toChar ≠ '+' := by
  decide

/-- The value of digits counts on from that of the first ones. -/
theorem value_append_singleton (ds : List Digit) (d : Digit) :
    value (ds ++ [d]) = value ds * 10 + d.val := by
  simp [value]

end Digit

/-! ## Integers -/

theorem isDigit_of_mem_repr {n : Nat} {c : Char} (h : c ∈ (Nat.repr n).toList) :
    c.isDigit = true := by
  rw [Nat.toList_repr] at h
  exact Nat.isDigit_of_mem_toDigits (by omega) (by omega) h

theorem repr_ne_nil (n : Nat) : (Nat.repr n).toList ≠ [] := by
  rw [Nat.toList_repr]
  exact Nat.toDigits_ne_nil

theorem toList_integerText (n : Int) :
    (integerText n).toList = (if n < 0 then ['-'] else []) ++ (Nat.repr n.natAbs).toList := by
  rw [integerText, String.toList_append]
  split <;> rfl

theorem integerText_ne_nil (n : Int) : (integerText n).toList ≠ [] := by
  rw [toList_integerText]
  exact List.append_ne_nil_of_right_ne_nil _ (repr_ne_nil _)

theorem isNumeralChar_of_mem_integerText {n : Int} {c : Char}
    (h : c ∈ (integerText n).toList) : isNumeralChar c = true := by
  rw [toList_integerText, List.mem_append] at h
  rcases h with h | h
  · have hc : c = '-' := by
      split at h
      · exact List.mem_singleton.mp h
      · exact absurd h List.not_mem_nil
    rw [hc]
    decide
  · exact isNumeralChar_of_isDigit (isDigit_of_mem_repr h)

/-- A minus sign is no digit, so only integers below zero start with one. -/
theorem neg_iff_of_integerText_eq {m n : Int} (h : integerText m = integerText n) (hm : m < 0) :
    n < 0 := by
  by_contra hn
  have hlist := congrArg String.toList h
  rw [toList_integerText, toList_integerText, if_pos hm, if_neg hn, List.nil_append] at hlist
  have hmem : '-' ∈ (Nat.repr n.natAbs).toList := by
    rw [← hlist]
    exact List.mem_append_left _ (List.mem_singleton.mpr rfl)
  exact absurd (isDigit_of_mem_repr hmem) (by decide)

/-- **Integers are told apart by their decimal forms.** -/
theorem integerText_injective {m n : Int} (h : integerText m = integerText n) : m = n := by
  have hsign : m < 0 ↔ n < 0 :=
    ⟨neg_iff_of_integerText_eq h, neg_iff_of_integerText_eq h.symm⟩
  have hlist := congrArg String.toList h
  rw [toList_integerText, toList_integerText] at hlist
  have habs : m.natAbs = n.natAbs := by
    by_cases hm : m < 0
    · rw [if_pos hm, if_pos (hsign.mp hm)] at hlist
      exact Nat.repr_injective (String.toList_inj.mp (List.append_cancel_left hlist))
    · rw [if_neg hm, if_neg (fun hn => hm (hsign.mpr hn))] at hlist
      exact Nat.repr_injective (String.toList_inj.mp (List.append_cancel_left hlist))
  omega

/-! ## Numbers -/

theorem isDigit_toChar : ∀ d : Digit, d.toChar.isDigit = true := by
  decide

theorem isNumeralChar_of_mem_fractionText {ds : List Digit} {c : Char}
    (h : c ∈ (Numeral.fractionText ds).toList) : isNumeralChar c = true := by
  rw [Numeral.fractionText] at h
  split at h
  · simp at h
  · rw [String.toList_ofList, List.mem_cons] at h
    rcases h with rfl | h
    · decide
    · obtain ⟨d, -, rfl⟩ := List.mem_map.mp h
      exact isNumeralChar_of_isDigit (isDigit_toChar d)

theorem isNumeralChar_of_mem_exponentText {e : Option Int} {c : Char}
    (h : c ∈ (Numeral.exponentText e).toList) : isNumeralChar c = true := by
  cases e with
  | none => simp [Numeral.exponentText] at h
  | some e =>
    have hmem : c ∈ ['e', '-'] ∨ c ∈ ['e', '+'] ∨ c ∈ (Nat.repr e.natAbs).toList := by
      rw [Numeral.exponentText] at h
      split at h <;> rw [String.toList_append, List.mem_append] at h
      · exact h.imp id .inr
      · exact .inr h
    rcases hmem with hmem | hmem | hmem
    · simp only [List.mem_cons, List.not_mem_nil, or_false] at hmem
      rcases hmem with rfl | rfl <;> decide
    · simp only [List.mem_cons, List.not_mem_nil, or_false] at hmem
      rcases hmem with rfl | rfl <;> decide
    · exact isNumeralChar_of_isDigit (isDigit_of_mem_repr hmem)

namespace Numeral

theorem isNumeralChar_of_mem_text {n : Numeral} {c : Char} (h : c ∈ n.text.toList) :
    isNumeralChar c = true := by
  simp only [text, String.toList_append, List.mem_append] at h
  rcases h with ((h | h) | h) | h
  · have hc : c = '-' := by
      split at h
      · exact List.mem_singleton.mp h
      · exact absurd h List.not_mem_nil
    rw [hc]
    decide
  · exact isNumeralChar_of_isDigit (isDigit_of_mem_repr h)
  · exact isNumeralChar_of_mem_fractionText h
  · exact isNumeralChar_of_mem_exponentText h

theorem text_ne_nil (n : Numeral) : n.text.toList ≠ [] := by
  simp only [text, String.toList_append]
  exact List.append_ne_nil_of_left_ne_nil (List.append_ne_nil_of_left_ne_nil
    (List.append_ne_nil_of_right_ne_nil _ (repr_ne_nil _)) _) _

end Numeral

namespace Binary64

theorem isNumeralChar_of_mem_queryText {x : Binary64} {c : Char} (h : c ∈ x.queryText.toList) :
    isNumeralChar c = true := by
  cases x with
  | finite negative rank => exact Numeral.isNumeralChar_of_mem_text h
  | infinite negative =>
    have hall : ∀ b, ((infinite b).queryText.toList.all isNumeralChar) = true := by decide
    exact List.all_eq_true.mp (hall negative) c h
  | nan =>
    have hall : (nan.queryText.toList.all isNumeralChar) = true := by decide
    exact List.all_eq_true.mp hall c h

theorem queryText_ne_nil (x : Binary64) : x.queryText.toList ≠ [] := by
  cases x with
  | finite negative rank => exact Numeral.text_ne_nil _
  | infinite negative => cases negative <;> decide
  | nan => decide

end Binary64

end LayerQuery
