import LayerQuery.Proofs.Grammar
import LayerQuery.Proofs.Numerals
/-!
# Numbers typed as text, as a grammar

Which texts are read as numbers, said without the readers. An integer is
a sign, which may be left out, and digits, any number of zeros in front
among them (`SpellsInteger`). A floating-point number has a sign too, and
then digits with at most one point among or around them and perhaps an
exponent, or one of the names that stand for no finite number, in any
letter case (`SpellsReal`).

Both readers take exactly what the grammar has (`readInteger?_eq_some_iff`,
`readNumber?_eq_some_iff`). They cut a text from the front, each time as
far as they can, and no part can go on with what the next one begins
with: after digits comes a point, a mark or the end.
-/

namespace LayerQuery

open Json

/-- The decimal forms of integers: a sign and digits. -/
inductive SpellsInteger : Int → List Char → Prop
  | mk {negative : Bool} {sign : List Char} (hsign : SpellsSign negative sign) (d : Digit)
    (ds : List Digit) :
    SpellsInteger (signed negative (Digit.value (d :: ds))) (sign ++ Digit.chars (d :: ds))

/-- The digits after a point, of which there may be none, or no point. -/
inductive SpellsPoint : List Digit → List Char → Prop
  | none : SpellsPoint [] []
  | point (ds : List Digit) : SpellsPoint ds ('.' :: Digit.chars ds)

/-- The text is a name, in whatever case. -/
def IsNamed (name : String) (cs : List Char) : Prop :=
  cs.map Text.lowerChar = name.toList

/-- The texts of floating-point numbers: names of what is not finite, and numerals, which are
rounded to the nearest number and have a digit before or behind the point. -/
inductive SpellsReal : Binary64 → List Char → Prop
  | infinity {negative : Bool} {sign word : List Char} (hsign : SpellsSign negative sign)
    (hword : IsNamed "inf" word ∨ IsNamed "infinity" word) :
    SpellsReal (.infinite negative) (sign ++ word)
  | nan {negative : Bool} {sign word : List Char} (hsign : SpellsSign negative sign)
    (hword : IsNamed "nan" word) : SpellsReal .nan (sign ++ word)
  | numeral {negative : Bool} {sign fs es : List Char} {whole fraction : List Digit}
    {exponent : Option Int} (hsign : SpellsSign negative sign) (hpoint : SpellsPoint fraction fs)
    (hexponent : SpellsExponent exponent es) (hdigits : whole ≠ [] ∨ fraction ≠ []) :
    SpellsReal (.ofNumeral ⟨negative, Digit.value whole, fraction, exponent⟩)
      (sign ++ (Digit.chars whole ++ (fs ++ es)))

/-! ## Signs and digits -/

theorem exists_spellsSign_splitSign (cs : List Char) :
    ∃ sign, SpellsSign (splitSign cs).1 sign ∧ cs = sign ++ (splitSign cs).2 := by
  unfold splitSign
  split
  · exact ⟨['-'], .minus, rfl⟩
  · exact ⟨['+'], .plus, rfl⟩
  · exact ⟨[], .none, rfl⟩

/-- A sign is taken off where no second one follows. -/
theorem splitSign_append {negative : Bool} {sign body : List Char}
    (hsign : SpellsSign negative sign) (hbody : ∀ c ∈ body.head?, c ≠ '-' ∧ c ≠ '+') :
    splitSign (sign ++ body) = (negative, body) := by
  cases hsign with
  | minus => rfl
  | plus => rfl
  | none =>
    cases body with
    | nil => rfl
    | cons c cs =>
      obtain ⟨hminus, hplus⟩ := hbody c rfl
      simp [splitSign, hminus, hplus]

namespace Digit

theorem chars_cons (d : Digit) (ds : List Digit) : chars (d :: ds) = d.toChar :: chars ds := rfl

/-- **Digits are taken as far as they go**, and no further. -/
theorem split_eq_iff {cs rest : List Char} {ds : List Digit} :
    split cs = (ds, rest) ↔ cs = chars ds ++ rest ∧ ∀ c ∈ rest.head?, ofChar? c = none := by
  induction cs generalizing ds with
  | nil =>
    rw [split, Prod.mk.injEq]
    constructor
    · rintro ⟨rfl, rfl⟩
      exact ⟨rfl, by simp⟩
    · rintro ⟨hcs, -⟩
      obtain ⟨hds, hrest⟩ := List.append_eq_nil_iff.mp hcs.symm
      exact ⟨(List.map_eq_nil_iff.mp hds).symm, hrest.symm⟩
  | cons c cs ih =>
    cases hc : ofChar? c with
    | none =>
      simp only [split, hc, Prod.mk.injEq]
      constructor
      · rintro ⟨rfl, rfl⟩
        exact ⟨rfl, by simpa using hc⟩
      · rintro ⟨hcs, -⟩
        cases ds with
        | nil => exact ⟨rfl, hcs⟩
        | cons d ds =>
          obtain rfl := (List.cons.inj hcs).1
          rw [ofChar?_toChar] at hc
          cases hc
    | some d =>
      have hd := eq_toChar_of_ofChar? hc
      obtain ⟨ds', rest', hsplit⟩ : ∃ ds' rest', split cs = (ds', rest') := ⟨_, _, rfl⟩
      simp only [split, hc, hsplit, Prod.mk.injEq]
      constructor
      · rintro ⟨rfl, rfl⟩
        obtain ⟨rfl, hrest⟩ := ih.mp hsplit
        exact ⟨by rw [chars_cons, hd, List.cons_append], hrest⟩
      · rintro ⟨hcs, hrest⟩
        cases ds with
        | nil =>
          rw [chars, List.map_nil, List.nil_append] at hcs
          have hnone := hrest c (by rw [← hcs]; rfl)
          rw [hc] at hnone
          cases hnone
        | cons e ds =>
          obtain ⟨he, htail⟩ := List.cons.inj hcs
          obtain rfl : d = e := Option.some.inj (by rw [← hc, he, ofChar?_toChar])
          have hsame := ih.mpr ⟨htail, hrest⟩
          rw [hsplit, Prod.mk.injEq] at hsame
          exact ⟨congrArg _ hsame.1, hsame.2⟩

theorem all?_eq_some_iff {cs : List Char} {ds : List Digit} :
    all? cs = some ds ↔ ds ≠ [] ∧ cs = chars ds := by
  rw [all?]
  constructor
  · intro h
    split at h
    · next d ds' hsplit =>
      obtain rfl := Option.some.inj h
      obtain ⟨hcs, -⟩ := split_eq_iff.mp hsplit
      exact ⟨List.cons_ne_nil _ _, hcs.trans (List.append_nil _)⟩
    · cases h
  · rintro ⟨hne, rfl⟩
    have hsplit : split (chars ds) = (ds, []) :=
      split_eq_iff.mpr ⟨(List.append_nil _).symm, by simp⟩
    rw [hsplit]
    cases ds with
    | nil => exact absurd rfl hne
    | cons d ds => rfl

end Digit

/-- A sign and digits, as they are taken apart. -/
theorem all?_splitSign_eq_some_iff {cs : List Char} {negative : Bool} {ds : List Digit} :
    (splitSign cs).1 = negative ∧ Digit.all? (splitSign cs).2 = some ds ↔
      ds ≠ [] ∧ ∃ sign, SpellsSign negative sign ∧ cs = sign ++ Digit.chars ds := by
  constructor
  · rintro ⟨rfl, hall⟩
    obtain ⟨hne, hbody⟩ := Digit.all?_eq_some_iff.mp hall
    obtain ⟨sign, hsign, hcs⟩ := exists_spellsSign_splitSign cs
    exact ⟨hne, sign, hsign, hbody ▸ hcs⟩
  · rintro ⟨hne, sign, hsign, rfl⟩
    have hbody : ∀ c ∈ (Digit.chars ds).head?, c ≠ '-' ∧ c ≠ '+' := by
      intro c hc
      obtain ⟨d, -, rfl⟩ := List.mem_map.mp (List.mem_of_head? hc)
      exact d.toChar_ne_sign
    rw [splitSign_append hsign hbody]
    exact ⟨rfl, Digit.all?_eq_some_iff.mpr ⟨hne, rfl⟩⟩

/-! ## Integers -/

/-- **The reader of integers takes the decimal forms** of what fits a signed word. -/
theorem readInteger?_eq_some_iff {s : String} {n : Int} :
    readInteger? s = some n ↔ SpellsInteger n s.toList ∧ inWord n = true := by
  simp only [readInteger?, Option.filter_eq_some_iff, Option.map_eq_some_iff]
  refine and_congr_left fun _ => ?_
  constructor
  · rintro ⟨ds, hall, rfl⟩
    obtain ⟨hne, sign, hsign, hcs⟩ := all?_splitSign_eq_some_iff.mp ⟨rfl, hall⟩
    cases ds with
    | nil => exact absurd rfl hne
    | cons d ds =>
      have hspells := SpellsInteger.mk hsign d ds
      rwa [← hcs] at hspells
  · intro h
    generalize hcs : s.toList = cs at h ⊢
    cases h with
    | mk hsign d ds =>
      obtain ⟨hnegative, hall⟩ :=
        all?_splitSign_eq_some_iff.mpr ⟨List.cons_ne_nil d ds, _, hsign, rfl⟩
      exact ⟨_, hall, by rw [hnegative]⟩

/-! ## Floating-point numbers -/

/-- The exponent that ends a number, nought if there is none. -/
theorem readExponent?_eq_some_iff {cs : List Char} {e : Int} :
    readExponent? cs = some e ↔ ∃ exponent, SpellsExponent exponent cs ∧ e = exponent.getD 0 := by
  cases cs with
  | nil =>
    rw [readExponent?]
    constructor
    · intro h
      exact ⟨none, .none, (Option.some.inj h).symm⟩
    · rintro ⟨exponent, hexponent, rfl⟩
      cases hexponent
      rfl
  | cons c cs =>
    rw [readExponent?]
    split
    · next hmark =>
      rw [Option.map_eq_some_iff]
      constructor
      · rintro ⟨ds, hall, rfl⟩
        obtain ⟨hne, sign, hsign, hcs⟩ := all?_splitSign_eq_some_iff.mp ⟨rfl, hall⟩
        cases ds with
        | nil => exact absurd rfl hne
        | cons d ds =>
          have hexponent := SpellsExponent.digits hmark hsign d ds
          rw [← hcs] at hexponent
          exact ⟨_, hexponent, rfl⟩
      · rintro ⟨exponent, hexponent, rfl⟩
        cases hexponent with
        | digits _ hsign d ds =>
          obtain ⟨hnegative, hall⟩ :=
            all?_splitSign_eq_some_iff.mpr ⟨List.cons_ne_nil d ds, _, hsign, rfl⟩
          exact ⟨_, hall, by rw [hnegative]; rfl⟩
    · next hmark =>
      refine iff_of_false (by simp) ?_
      rintro ⟨exponent, hexponent, -⟩
      cases hexponent with
      | digits hc _ _ _ => exact hmark hc

/-- An exponent begins with its mark, so neither digits nor a point go on with it. -/
theorem head_of_spellsExponent {exponent : Option Int} {es : List Char}
    (h : SpellsExponent exponent es) : ∀ c ∈ es.head?, Digit.ofChar? c = none ∧ c ≠ '.' := by
  have hmarks : ∀ c, IsMark c → Digit.ofChar? c = none ∧ c ≠ '.' := by
    rintro c (rfl | rfl) <;> decide
  intro c hc
  cases h with
  | none => cases hc
  | digits hmark hsign d ds =>
    obtain rfl := Option.some.inj hc
    exact hmarks _ hmark

theorem exists_spellsPoint_splitFraction (cs : List Char) :
    ∃ fs, SpellsPoint (splitFraction cs).1 fs ∧ cs = fs ++ (splitFraction cs).2 := by
  unfold splitFraction
  split
  · next cs =>
    exact ⟨_, .point _, congrArg _ (Digit.split_eq_iff.mp rfl).1⟩
  · exact ⟨[], .none, rfl⟩

theorem splitFraction_append {fraction : List Digit} {fs es : List Char}
    (hpoint : SpellsPoint fraction fs) (hes : ∀ c ∈ es.head?, Digit.ofChar? c = none ∧ c ≠ '.') :
    splitFraction (fs ++ es) = (fraction, es) := by
  cases hpoint with
  | none =>
    cases es with
    | nil => rfl
    | cons c es => simp [splitFraction, (hes c rfl).2]
  | point => exact Digit.split_eq_iff.mpr ⟨rfl, fun c hc => (hes c hc).1⟩

/-- A digit or a point begins a numeral; it is no sign and no letter. -/
theorem exists_cons_of_spellsPoint {whole fraction : List Digit} {fs : List Char}
    (hpoint : SpellsPoint fraction fs) (hdigits : whole ≠ [] ∨ fraction ≠ []) (es : List Char) :
    ∃ c rest, Digit.chars whole ++ (fs ++ es) = c :: rest ∧ (c ≠ '-' ∧ c ≠ '+') ∧
      Text.lowerChar c ≠ 'i' ∧ Text.lowerChar c ≠ 'n' := by
  have hdigit : ∀ d : Digit, (d.toChar ≠ '-' ∧ d.toChar ≠ '+') ∧
      Text.lowerChar d.toChar ≠ 'i' ∧ Text.lowerChar d.toChar ≠ 'n' := by decide
  cases whole with
  | cons d ds => exact ⟨_, _, rfl, hdigit d⟩
  | nil =>
    cases hpoint with
    | none => simp at hdigits
    | point => exact ⟨'.', _, rfl, by decide, by decide⟩

/-- The first letter of a name, in whatever case, is no sign. -/
theorem IsNamed.ne_sign {name : String} {word : List Char} (h : IsNamed name word)
    (hname : '-' ∉ name.toList ∧ '+' ∉ name.toList) : ∀ c ∈ word.head?, c ≠ '-' ∧ c ≠ '+' := by
  intro c hc
  have hmem : Text.lowerChar c ∈ name.toList := by
    rw [← h]
    exact List.mem_map_of_mem (List.mem_of_head? hc)
  constructor <;> rintro rfl
  · exact hname.1 hmem
  · exact hname.2 hmem

/-- An exponent that is left out counts as nought. -/
theorem ofNumeral_getD (negative : Bool) (whole : Nat) (fraction : List Digit)
    (exponent : Option Int) :
    Binary64.ofNumeral ⟨negative, whole, fraction, some (exponent.getD 0)⟩ =
      Binary64.ofNumeral ⟨negative, whole, fraction, exponent⟩ := rfl

theorem readNumeral?_eq_some_iff {negative : Bool} {cs : List Char} {n : Numeral} :
    readNumeral? negative cs = some n ↔
      ∃ whole fraction exponent fs es, SpellsPoint fraction fs ∧ SpellsExponent exponent es ∧
        (whole ≠ [] ∨ fraction ≠ []) ∧ cs = Digit.chars whole ++ (fs ++ es) ∧
        n = ⟨negative, Digit.value whole, fraction, some (exponent.getD 0)⟩ := by
  constructor
  · intro h
    obtain ⟨fs, hpoint, hrest⟩ := exists_spellsPoint_splitFraction (Digit.split cs).2
    obtain ⟨hcs, -⟩ := Digit.split_eq_iff.mp (rfl : Digit.split cs = (_, _))
    simp only [readNumeral?] at h
    split at h
    · cases h
    · next hdigits =>
      obtain ⟨e, he, rfl⟩ := Option.map_eq_some_iff.mp h
      obtain ⟨exponent, hexponent, rfl⟩ := readExponent?_eq_some_iff.mp he
      refine ⟨_, _, exponent, fs, _, hpoint, hexponent, ?_, ?_, rfl⟩
      · simpa [← not_and_or] using hdigits
      · rwa [← hrest]
  · rintro ⟨whole, fraction, exponent, fs, es, hpoint, hexponent, hdigits, rfl, rfl⟩
    have hes := head_of_spellsExponent hexponent
    have hhead : ∀ c ∈ (fs ++ es).head?, Digit.ofChar? c = none := by
      cases hpoint with
      | none => exact fun c hc => (hes c hc).1
      | point =>
        intro c hc
        obtain rfl := Option.some.inj hc
        decide
    have hsplit : Digit.split (Digit.chars whole ++ (fs ++ es)) = (whole, fs ++ es) :=
      Digit.split_eq_iff.mpr ⟨rfl, hhead⟩
    have hread := readExponent?_eq_some_iff.mpr ⟨exponent, hexponent, rfl⟩
    have hsome : ¬ (whole.isEmpty && fraction.isEmpty) = true := by
      simpa [← not_and_or] using hdigits
    simp only [readNumeral?, hsplit, splitFraction_append hpoint hes, if_neg hsome, hread,
      Option.map_some]

/-- **The reader of numbers takes the texts of floating-point numbers**, and what it makes of
them is what they denote. -/
theorem readNumber?_eq_some_iff {s : String} {x : Binary64} :
    readNumber? s = some x ↔ SpellsReal x s.toList := by
  constructor
  · intro h
    obtain ⟨sign, hsign, hcs⟩ := exists_spellsSign_splitSign s.toList
    rw [hcs]
    simp only [readNumber?] at h
    split at h
    · next hword =>
      obtain rfl := Option.some.inj h
      exact .infinity hsign hword
    · split at h
      · next hword =>
        obtain rfl := Option.some.inj h
        exact .nan hsign hword
      · obtain ⟨n, hn, rfl⟩ := Option.map_eq_some_iff.mp h
        obtain ⟨whole, fraction, exponent, fs, es, hpoint, hexponent, hdigits, hbody, rfl⟩ :=
          readNumeral?_eq_some_iff.mp hn
        rw [hbody, ofNumeral_getD]
        exact .numeral hsign hpoint hexponent hdigits
  · intro h
    generalize hcs : s.toList = cs at h
    simp only [readNumber?, hcs]
    cases h with
    | infinity hsign hword =>
      have hhead := hword.elim (IsNamed.ne_sign · (by decide)) (IsNamed.ne_sign · (by decide))
      rw [splitSign_append hsign hhead]
      exact if_pos hword
    | nan hsign hword =>
      rw [splitSign_append hsign (hword.ne_sign (by decide))]
      refine (if_neg ?_).trans (if_pos hword)
      rw [hword]
      decide
    | @numeral negative sign fs es whole fraction exponent hsign hpoint hexponent hdigits =>
      obtain ⟨c, rest, hbody, hne, hi, hn⟩ := exists_cons_of_spellsPoint hpoint hdigits es
      have hread : readNumeral? negative (Digit.chars whole ++ (fs ++ es)) =
          some ⟨negative, Digit.value whole, fraction, some (exponent.getD 0)⟩ :=
        readNumeral?_eq_some_iff.mpr
          ⟨whole, fraction, exponent, fs, es, hpoint, hexponent, hdigits, rfl, rfl⟩
      have hhead : ∀ d ∈ (Digit.chars whole ++ (fs ++ es)).head?, d ≠ '-' ∧ d ≠ '+' := by
        rw [hbody]
        rintro d hd
        obtain rfl := Option.some.inj hd
        exact hne
      rw [splitSign_append hsign hhead, hread]
      -- the first letter of a name would have to be one of two
      rw [if_neg, if_neg, Option.map_some, ofNumeral_getD]
      · rw [hbody]
        exact fun hnan => hn (List.cons.inj hnan).1
      · rw [hbody]
        rintro (hinf | hinf) <;> exact hi (List.cons.inj hinf).1

end LayerQuery
