import LayerQuery.Proofs.Grammar
import LayerQuery.Proofs.Numerals
/-!
# Numerals and strings, as the reader takes them

The reader takes a numeral character by character into a `Lexeme` and a
string into `Chars`. Both are compared with the grammar here: the lexemes
that may end are those of spelled numerals (`numeralOf?_eq_some_iff`),
and what a string says is what its pieces stand for
(`exists_addAll?_start_iff`).

For numerals the invariant is `Lexeme.Holds`: what has been read, stage
by stage. A step keeps it (`Holds.add`), and so does a run.
-/

namespace LayerQuery

/-! ## Digits -/

namespace Digit

theorem chars_append_singleton (ds : List Digit) (d : Digit) :
    chars (ds ++ [d]) = chars ds ++ [d.toChar] := by
  simp [chars]

end Digit

namespace Json

/-! ## Numerals -/

namespace Lexeme

/-- The lexeme with further characters. -/
def addAll? : Lexeme → List Char → Option Lexeme
  | l, [] => some l
  | l, c :: cs => (l.add? c).bind (addAll? · cs)

theorem addAll?_append (l : Lexeme) (cs ds : List Char) :
    l.addAll? (cs ++ ds) = (l.addAll? cs).bind (addAll? · ds) := by
  induction cs generalizing l with
  | nil => rfl
  | cons c cs ih =>
    simp only [List.cons_append, addAll?]
    cases l.add? c with
    | none => rfl
    | some l' => exact ih l'

theorem add?_toChar (l : Lexeme) (d : Digit) : l.add? d.toChar = some (l.addDigit d) := by
  rw [add?, Digit.ofChar?_toChar]

/-- Digits are always taken. -/
theorem addAll?_digits (l : Lexeme) (ds : List Digit) :
    l.addAll? (Digit.chars ds) = some (ds.foldl addDigit l) := by
  induction ds generalizing l with
  | nil => rfl
  | cons d ds ih =>
    rw [Digit.chars, List.map_cons, addAll?, add?_toChar]
    exact ih (l.addDigit d)

/-- What has been read into a lexeme, stage by stage. -/
inductive Holds : Lexeme → List Char → Prop
  | minus : Holds ⟨.minus, true, 0, [], false, 0⟩ ['-']
  | zero (negative : Bool) : Holds ⟨.zero, negative, 0, [], false, 0⟩ (signChars negative ++ ['0'])
  | zeroDigit {l : Lexeme} {cs : List Char} (h : l.stage = .zeroDigit) : Holds l cs
  | whole (negative : Bool) {d : Digit} (ds : List Digit) (h : d ≠ Digit.zero) :
    Holds ⟨.whole, negative, Digit.value (d :: ds), [], false, 0⟩
      (signChars negative ++ Digit.chars (d :: ds))
  | point (negative : Bool) {whole : Nat} {ws : List Char} (hwhole : SpellsWhole whole ws) :
    Holds ⟨.point, negative, whole, [], false, 0⟩ (signChars negative ++ (ws ++ ['.']))
  | fraction (negative : Bool) {whole : Nat} {ws : List Char} (hwhole : SpellsWhole whole ws)
    (d : Digit) (ds : List Digit) :
    Holds ⟨.fraction, negative, whole, (d :: ds).reverse, false, 0⟩
      (signChars negative ++ (ws ++ '.' :: Digit.chars (d :: ds)))
  | mark (negative : Bool) {whole : Nat} {ws : List Char} (hwhole : SpellsWhole whole ws)
    {fraction : List Digit} {fs : List Char} (hfraction : SpellsFraction fraction fs)
    {mark : Char} (hmark : IsMark mark) :
    Holds ⟨.mark, negative, whole, fraction.reverse, false, 0⟩
      (signChars negative ++ (ws ++ (fs ++ [mark])))
  | sign (negative : Bool) {whole : Nat} {ws : List Char} (hwhole : SpellsWhole whole ws)
    {fraction : List Digit} {fs : List Char} (hfraction : SpellsFraction fraction fs)
    {mark : Char} (hmark : IsMark mark) {exponentNegative : Bool} {sign : List Char}
    (hsign : SpellsSign exponentNegative sign) :
    Holds ⟨.sign, negative, whole, fraction.reverse, exponentNegative, 0⟩
      (signChars negative ++ (ws ++ (fs ++ mark :: sign)))
  | exponent (negative : Bool) {whole : Nat} {ws : List Char} (hwhole : SpellsWhole whole ws)
    {fraction : List Digit} {fs : List Char} (hfraction : SpellsFraction fraction fs)
    {mark : Char} (hmark : IsMark mark) {exponentNegative : Bool} {sign : List Char}
    (hsign : SpellsSign exponentNegative sign) (d : Digit) (ds : List Digit) :
    Holds ⟨.exponent, negative, whole, fraction.reverse, exponentNegative, Digit.value (d :: ds)⟩
      (signChars negative ++ (ws ++ (fs ++ mark :: (sign ++ Digit.chars (d :: ds)))))

theorem val_eq_value (d : Digit) : d.val = Digit.value [d] := by
  simp [Digit.value]

theorem Holds.of_start? {c : Char} {l : Lexeme} (h : start? c = some l) : Holds l [c] := by
  unfold start? at h
  split at h
  · next hc =>
    obtain rfl := Option.some.inj h
    rw [hc]
    exact .minus
  · obtain ⟨d, hd, rfl⟩ := Option.map_eq_some_iff.mp h
    rw [Digit.eq_toChar_of_ofChar? hd]
    by_cases hzero : d = Digit.zero
    · subst hzero
      exact .zero false
    · rw [if_neg hzero, val_eq_value]
      exact .whole false [] hzero

/-- **A digit keeps what a lexeme holds.** -/
theorem Holds.addDigit {l : Lexeme} {cs : List Char} (h : Holds l cs) (d : Digit) :
    Holds (l.addDigit d) (cs ++ [d.toChar]) := by
  cases h with
  | minus =>
    by_cases hzero : d = Digit.zero
    · subst hzero
      exact .zero true
    · have hnew := Holds.whole true [] hzero
      rw [← val_eq_value] at hnew
      simp only [Lexeme.addDigit, if_neg hzero]
      exact hnew
  | zero negative => exact .zeroDigit rfl
  | zeroDigit h =>
    refine .zeroDigit ?_
    rw [Lexeme.addDigit, h]
  | whole negative ds hd =>
    have hnew := Holds.whole negative (ds ++ [d]) hd
    rw [← List.cons_append, Digit.value_append_singleton, Digit.chars_append_singleton] at hnew
    rw [List.append_assoc]
    exact hnew
  | point negative hwhole =>
    have hnew := Holds.fraction negative hwhole d []
    rw [List.append_assoc, List.append_assoc]
    exact hnew
  | fraction negative hwhole e ds =>
    have hnew := Holds.fraction negative hwhole e (ds ++ [d])
    rw [← List.cons_append, Digit.chars_append_singleton, List.reverse_append] at hnew
    rw [List.append_assoc, List.append_assoc]
    exact hnew
  | mark negative hwhole hfraction hmark =>
    have hnew := Holds.exponent negative hwhole hfraction hmark .none d []
    rw [← val_eq_value] at hnew
    rw [List.append_assoc, List.append_assoc, List.append_assoc]
    simp only [Lexeme.addDigit, Nat.zero_mul, Nat.zero_add]
    exact hnew
  | sign negative hwhole hfraction hmark hsign =>
    have hnew := Holds.exponent negative hwhole hfraction hmark hsign d []
    rw [← val_eq_value] at hnew
    rw [List.append_assoc, List.append_assoc, List.append_assoc]
    simp only [Lexeme.addDigit, Nat.zero_mul, Nat.zero_add]
    exact hnew
  | exponent negative hwhole hfraction hmark hsign e ds =>
    have hnew := Holds.exponent negative hwhole hfraction hmark hsign e (ds ++ [d])
    rw [← List.cons_append, Digit.value_append_singleton, Digit.chars_append_singleton] at hnew
    rw [List.append_assoc, List.append_assoc, List.append_assoc, List.cons_append,
      List.append_assoc]
    exact hnew

/-- After the whole part there may be a point or the letter of an exponent. -/
theorem Holds.of_whole (negative : Bool) {whole : Nat} {ws : List Char}
    (hwhole : SpellsWhole whole ws) {c : Char} {l' : Lexeme}
    (hadd : (if c = '.' then some (⟨.point, negative, whole, [], false, 0⟩ : Lexeme)
      else if c = 'e' ∨ c = 'E' then some ⟨.mark, negative, whole, [], false, 0⟩ else none) =
        some l') : Holds l' (signChars negative ++ ws ++ [c]) := by
  rw [List.append_assoc]
  split at hadd
  · next hpoint =>
    obtain rfl := Option.some.inj hadd
    rw [hpoint]
    exact .point negative hwhole
  · split at hadd
    · next hmark =>
      obtain rfl := Option.some.inj hadd
      exact .mark negative hwhole .none hmark
    · cases hadd

/-- **So does any character that may follow.** -/
theorem Holds.add {l l' : Lexeme} {cs : List Char} (h : Holds l cs) {c : Char}
    (hadd : l.add? c = some l') : Holds l' (cs ++ [c]) := by
  unfold add? at hadd
  split at hadd
  · next d hd =>
    obtain rfl := Option.some.inj hadd
    rw [Digit.eq_toChar_of_ofChar? hd]
    exact h.addDigit d
  -- what is no digit may only be a point, a letter or a sign
  cases h with
  | minus => cases hadd
  | zeroDigit h =>
    rw [h] at hadd
    cases hadd
  | zero negative => exact .of_whole negative .zero hadd
  | whole negative ds hd => exact .of_whole negative (.digits ds hd) hadd
  | point => cases hadd
  | fraction negative hwhole d ds =>
    simp only at hadd
    split at hadd
    · next hmark =>
      obtain rfl := Option.some.inj hadd
      have hnew := Holds.mark negative hwhole (.digits d ds) hmark
      rw [List.append_assoc, List.append_assoc]
      exact hnew
    · cases hadd
  | mark negative hwhole hfraction hmark =>
    simp only at hadd
    rw [List.append_assoc, List.append_assoc, List.append_assoc]
    split at hadd
    · next hplus =>
      obtain rfl := Option.some.inj hadd
      rw [hplus]
      exact .sign negative hwhole hfraction hmark .plus
    · split at hadd
      · next hminus =>
        obtain rfl := Option.some.inj hadd
        rw [hminus]
        exact .sign negative hwhole hfraction hmark .minus
      · cases hadd
  | sign => cases hadd
  | exponent => cases hadd

theorem Holds.addAll {l l' : Lexeme} {cs ds : List Char} (h : Holds l cs)
    (hadd : l.addAll? ds = some l') : Holds l' (cs ++ ds) := by
  induction ds generalizing l cs with
  | nil =>
    obtain rfl := Option.some.inj hadd
    rwa [List.append_nil]
  | cons d ds ih =>
    obtain ⟨next, hnext, hrest⟩ := Option.bind_eq_some_iff.mp hadd
    have hrun := ih (h.add hnext) hrest
    rwa [List.append_assoc] at hrun

/-- **A lexeme that may end holds a spelled numeral.** -/
theorem Holds.spellsNumeral {l : Lexeme} {cs : List Char} (h : Holds l cs) {n : Numeral}
    (hn : l.numeral? = some n) : SpellsNumeral n cs := by
  cases h with
  | minus | point | mark | sign => cases hn
  | zeroDigit h =>
    simp only [numeral?, h] at hn
    cases hn
  | zero negative =>
    obtain rfl := Option.some.inj hn
    exact .mk negative .zero .none .none
  | whole negative ds hd =>
    obtain rfl := Option.some.inj hn
    have hnew := SpellsNumeral.mk negative (.digits ds hd) .none .none
    rwa [List.append_nil, List.append_nil] at hnew
  | fraction negative hwhole d ds =>
    obtain rfl := Option.some.inj hn
    have hnew := SpellsNumeral.mk negative hwhole (.digits d ds) .none
    rw [List.append_nil] at hnew
    rw [List.reverse_reverse]
    exact hnew
  | exponent negative hwhole hfraction hmark hsign d ds =>
    obtain rfl := Option.some.inj hn
    rw [List.reverse_reverse]
    exact .mk negative hwhole hfraction (.digits hmark hsign d ds)

/-! The other way round the parts of a spelled numeral are read one after
the other, each from the stage in which the part before it ends. -/

theorem foldl_addDigit_whole (negative : Bool) (n : Nat) (ds : List Digit) :
    ds.foldl Lexeme.addDigit ⟨.whole, negative, n, [], false, 0⟩ =
      ⟨.whole, negative, ds.foldl (fun n d => n * 10 + d.val) n, [], false, 0⟩ := by
  induction ds generalizing n with
  | nil => rfl
  | cons d ds ih => exact ih (n * 10 + d.val)

theorem foldl_addDigit_fraction (negative : Bool) (n : Nat) (read ds : List Digit) :
    ds.foldl Lexeme.addDigit ⟨.fraction, negative, n, read, false, 0⟩ =
      ⟨.fraction, negative, n, ds.reverse ++ read, false, 0⟩ := by
  induction ds generalizing read with
  | nil => rfl
  | cons d ds ih =>
    rw [List.reverse_cons, List.append_assoc]
    exact ih (d :: read)

theorem foldl_addDigit_exponent (negative : Bool) (n : Nat) (read : List Digit)
    (exponentNegative : Bool) (e : Nat) (ds : List Digit) :
    ds.foldl Lexeme.addDigit ⟨.exponent, negative, n, read, exponentNegative, e⟩ =
      ⟨.exponent, negative, n, read, exponentNegative,
        ds.foldl (fun n d => n * 10 + d.val) e⟩ := by
  induction ds generalizing e with
  | nil => rfl
  | cons d ds ih => exact ih (e * 10 + d.val)

/-- The stage in which a whole part ends. -/
def wholeStage (n : Nat) : Stage :=
  if n = 0 then .zero else .whole

theorem value_ne_zero {d : Digit} (ds : List Digit) (h : d ≠ Digit.zero) :
    Digit.value (d :: ds) ≠ 0 := by
  have hd : 0 < d.val := Nat.pos_of_ne_zero fun hval => h (Fin.ext hval)
  have hmono (n : Nat) (hn : 0 < n) : 0 < ds.foldl (fun n d => n * 10 + d.val) n := by
    induction ds generalizing n with
    | nil => exact hn
    | cons e ds ih => exact ih (n * 10 + e.val) (by omega)
  exact Nat.ne_of_gt (hmono (0 * 10 + d.val) (by omega))

/-- The sign and the whole part are read. -/
theorem exists_start?_of_spellsWhole {n : Nat} {ws : List Char} (h : SpellsWhole n ws)
    (negative : Bool) :
    ∃ c cs l, signChars negative ++ ws = c :: cs ∧ start? c = some l ∧
      l.addAll? cs = some ⟨wholeStage n, negative, n, [], false, 0⟩ := by
  cases h with
  | zero => cases negative <;> exact ⟨_, _, _, rfl, rfl, rfl⟩
  | @digits d ds hd =>
    have hfold := foldl_addDigit_whole negative d.val ds
    have hvalue : ds.foldl (fun n d => n * 10 + d.val) d.val = Digit.value (d :: ds) := by
      simp [Digit.value]
    rw [hvalue] at hfold
    have hstage : wholeStage (Digit.value (d :: ds)) = .whole := if_neg (value_ne_zero ds hd)
    rw [hstage]
    cases negative with
    | false =>
      refine ⟨d.toChar, Digit.chars ds, ⟨.whole, false, d.val, [], false, 0⟩, rfl, ?_, ?_⟩
      · rw [start?, if_neg (Digit.toChar_ne_sign d).1, Digit.ofChar?_toChar, Option.map_some, if_neg hd]
      · rw [addAll?_digits, hfold]
    | true =>
      refine ⟨'-', Digit.chars (d :: ds), ⟨.minus, true, 0, [], false, 0⟩, rfl, rfl, ?_⟩
      rw [addAll?_digits, List.foldl_cons]
      simp only [Lexeme.addDigit, if_neg hd, hfold]

/-- Then the fraction. -/
theorem exists_addAll?_of_spellsFraction {fraction : List Digit} {fs : List Char}
    (h : SpellsFraction fraction fs) (negative : Bool) (n : Nat) :
    ∃ stage, (Lexeme.mk (wholeStage n) negative n [] false 0).addAll? fs =
        some ⟨stage, negative, n, fraction.reverse, false, 0⟩ ∧
      (stage = .zero ∨ stage = .whole ∨ stage = .fraction) := by
  have hstage : wholeStage n = .zero ∨ wholeStage n = .whole := by
    unfold wholeStage
    split
    · exact .inl rfl
    · exact .inr rfl
  cases h with
  | none => exact ⟨wholeStage n, rfl, hstage.imp id .inl⟩
  | digits d ds =>
    refine ⟨.fraction, ?_, .inr (.inr rfl)⟩
    have hpoint : (Lexeme.mk (wholeStage n) negative n [] false 0).add? '.' =
        some ⟨.point, negative, n, [], false, 0⟩ := by
      rcases hstage with h | h <;> rw [h] <;> rfl
    rw [addAll?, hpoint, Option.bind_some, addAll?_digits, List.foldl_cons, List.reverse_cons]
    exact congrArg some (foldl_addDigit_fraction negative n [d] ds)

/-- And last the exponent. -/
theorem exists_addAll?_of_spellsExponent {exponent : Option Int} {es : List Char}
    (h : SpellsExponent exponent es) (negative : Bool) (n : Nat) (fraction : List Digit)
    {stage : Stage} (hstage : stage = .zero ∨ stage = .whole ∨ stage = .fraction) :
    ∃ l, (Lexeme.mk stage negative n fraction.reverse false 0).addAll? es = some l ∧
      l.numeral? = some ⟨negative, n, fraction, exponent⟩ := by
  cases h with
  | none =>
    refine ⟨_, rfl, ?_⟩
    rcases hstage with rfl | rfl | rfl <;> simp [numeral?]
  | @digits mark exponentNegative sign hmark hsign d ds =>
    have hmarked : (Lexeme.mk stage negative n fraction.reverse false 0).add? mark =
        some ⟨.mark, negative, n, fraction.reverse, false, 0⟩ := by
      rcases hmark with rfl | rfl <;> rcases hstage with rfl | rfl | rfl <;> rfl
    have hfold := foldl_addDigit_exponent negative n fraction.reverse exponentNegative d.val ds
    have hvalue : ds.foldl (fun n d => n * 10 + d.val) d.val = Digit.value (d :: ds) := by
      simp [Digit.value]
    rw [hvalue] at hfold
    refine ⟨⟨.exponent, negative, n, fraction.reverse, exponentNegative, Digit.value (d :: ds)⟩,
      ?_, ?_⟩
    · rw [addAll?, hmarked, Option.bind_some, addAll?_append]
      -- the sign leads to a stage in which the first digit counts from nought
      cases hsign with
      | none =>
        simp only [addAll?, Option.bind_some, addAll?_digits, List.foldl_cons, Lexeme.addDigit,
          Nat.zero_mul, Nat.zero_add, hfold]
      | plus =>
        have hadd : (Lexeme.mk .mark negative n fraction.reverse false 0).add? '+' =
            some ⟨.sign, negative, n, fraction.reverse, false, 0⟩ := rfl
        simp only [addAll?, hadd, Option.bind_some, addAll?_digits, List.foldl_cons,
          Lexeme.addDigit, Nat.zero_mul, Nat.zero_add, hfold]
      | minus =>
        have hadd : (Lexeme.mk .mark negative n fraction.reverse false 0).add? '-' =
            some ⟨.sign, negative, n, fraction.reverse, true, 0⟩ := rfl
        simp only [addAll?, hadd, Option.bind_some, addAll?_digits, List.foldl_cons,
          Lexeme.addDigit, Nat.zero_mul, Nat.zero_add, hfold]
    · simp only [numeral?, List.reverse_reverse, signed]

end Lexeme

/-- The numeral that characters are, if they are one. -/
def numeralOf? : List Char → Option Numeral
  | [] => none
  | c :: cs => (Lexeme.start? c).bind fun l => (l.addAll? cs).bind Lexeme.numeral?

/-- **The reader takes the numerals of the grammar**, and no others. -/
theorem numeralOf?_eq_some_iff {cs : List Char} {n : Numeral} :
    numeralOf? cs = some n ↔ SpellsNumeral n cs := by
  constructor
  · intro h
    cases cs with
    | nil => cases h
    | cons c cs =>
      obtain ⟨l, hstart, h⟩ := Option.bind_eq_some_iff.mp h
      obtain ⟨l', hadd, hn⟩ := Option.bind_eq_some_iff.mp h
      exact ((Lexeme.Holds.of_start? hstart).addAll hadd).spellsNumeral hn
  · rintro ⟨negative, hwhole, hfraction, hexponent⟩
    obtain ⟨c, cs, l, hcs, hstart, hadd⟩ := Lexeme.exists_start?_of_spellsWhole hwhole negative
    obtain ⟨stage, hadd', hstage⟩ :=
      Lexeme.exists_addAll?_of_spellsFraction hfraction negative _
    obtain ⟨l', hadd'', hn⟩ :=
      Lexeme.exists_addAll?_of_spellsExponent hexponent negative _ _ hstage
    rw [← List.append_assoc, hcs, List.cons_append, numeralOf?, hstart, Option.bind_some,
      Lexeme.addAll?_append, hadd, Option.bind_some, Lexeme.addAll?_append, hadd', Option.bind_some,
      hadd'', Option.bind_some, hn]


/-! ## Strings -/

namespace Chars

/-- The string with further characters, none of them the closing quote. -/
def addAll? : Chars → List Char → Option Chars
  | s, [] => some s
  | s, c :: cs =>
    if c = '"' ∧ s.escape = .none then none else (s.add? c).bind (addAll? · cs)

theorem addAll?_append (s : Chars) (cs ds : List Char) :
    s.addAll? (cs ++ ds) = (s.addAll? cs).bind (addAll? · ds) := by
  induction cs generalizing s with
  | nil => rfl
  | cons c cs ih =>
    simp only [List.cons_append, addAll?]
    split
    · rfl
    · cases s.add? c with
      | none => rfl
      | some s' => exact ih s'

/-- The string with one more piece. -/
def addPiece (s : Chars) : Piece → Chars
  | .char c => s.put c
  | .unit n => s.putUnit n

theorem escape_putUnit (s : Chars) (n : Nat) : (s.putUnit n).escape = .none := by
  unfold putUnit
  split
  · split <;> rfl
  · split <;> rfl

theorem escape_addPiece (s : Chars) (p : Piece) : (s.addPiece p).escape = .none := by
  cases p with
  | char c => rfl
  | unit n => exact escape_putUnit s n

theorem escape_addPieces {s : Chars} (hs : s.escape = .none) (ps : List Piece) :
    (ps.foldl addPiece s).escape = .none := by
  induction ps generalizing s with
  | nil => exact hs
  | cons p ps ih => exact ih (escape_addPiece s p)

theorem putUnit_of_escape (s : Chars) (e : Escape) (n : Nat) :
    ({ s with escape := e } : Chars).putUnit n = s.putUnit n := rfl

/-- A piece is read as what it is. -/
theorem addAll?_of_spellsPiece {p : Piece} {cs : List Char} (h : SpellsPiece p cs) {s : Chars}
    (hs : s.escape = .none) : s.addAll? cs = some (s.addPiece p) := by
  cases h with
  | plain hcontrol hquotes hslash =>
    have hlow : ¬ _ < 0x20 := Nat.not_lt.mpr hcontrol
    simp only [addAll?, add?, hs, hquotes, hslash, hlow, false_and, if_false, Option.bind_some]
    rfl
  | @letter l c h =>
    have hu : l ≠ 'u' := by
      rintro rfl
      cases h
    simp [addAll?, add?, hs, hu, h, addPiece, put]
  | number ha hb hc hd =>
    simp [addAll?, add?, hs, ha, hb, hc, hd, addPiece, putUnit_of_escape]

theorem addAll?_of_spellsPieces {ps : List Piece} {cs : List Char} (h : SpellsPieces ps cs)
    {s : Chars} (hs : s.escape = .none) : s.addAll? cs = some (ps.foldl addPiece s) := by
  induction h generalizing s with
  | nil => rfl
  | @cons p ps front rest h hrest ih =>
    rw [addAll?_append, addAll?_of_spellsPiece h hs, Option.bind_some, ih (escape_addPiece s p)]
    rfl

/-! The other way round an escape that was begun is completed, one
character at a time. -/

/-- One more digit of a number. -/
theorem exists_of_addAll?_hex {s s' : Chars} {left unit : Nat} {cs : List Char}
    (h : ({ s with escape := .hex left unit } : Chars).addAll? cs = some s')
    (hs' : s'.escape = .none) :
    ∃ a w rest, cs = a :: rest ∧ hexDigit? a = some w ∧
      (match left with
        | 0 => s.putUnit (unit * 16 + w)
        | left + 1 => { s with escape := .hex left (unit * 16 + w) }).addAll? rest = some s' := by
  cases cs with
  | nil =>
    obtain rfl := Option.some.inj h
    cases hs'
  | cons a rest =>
    rw [addAll?, if_neg (fun hquote => by cases hquote.2)] at h
    obtain ⟨next, hnext, hrest⟩ := Option.bind_eq_some_iff.mp h
    obtain ⟨w, hw, rfl⟩ := Option.map_eq_some_iff.mp hnext
    refine ⟨a, w, rest, rfl, hw, ?_⟩
    cases left with
    | zero => exact hrest
    | succ left => exact hrest

/-- The rest of an escape, and what follows it. -/
theorem exists_of_addAll?_slash {s s' : Chars} {cs : List Char}
    (h : ({ s with escape := .slash } : Chars).addAll? cs = some s') (hs' : s'.escape = .none) :
    ∃ p front rest, cs = front ++ rest ∧ SpellsPiece p ('\\' :: front) ∧
      (s.addPiece p).addAll? rest = some s' := by
  cases cs with
  | nil =>
    obtain rfl := Option.some.inj h
    cases hs'
  | cons l cs =>
    rw [addAll?, if_neg (fun hquote => by cases hquote.2)] at h
    obtain ⟨next, hnext, hrest⟩ := Option.bind_eq_some_iff.mp h
    by_cases hu : l = 'u'
    · simp only [add?, if_pos hu] at hnext
      obtain rfl := Option.some.inj hnext
      obtain ⟨a, w, rest, rfl, ha, hrest⟩ := exists_of_addAll?_hex hrest hs'
      obtain ⟨b, x, rest, rfl, hb, hrest⟩ := exists_of_addAll?_hex hrest hs'
      obtain ⟨c, y, rest, rfl, hc, hrest⟩ := exists_of_addAll?_hex hrest hs'
      obtain ⟨d, z, rest, rfl, hd, hrest⟩ := exists_of_addAll?_hex hrest hs'
      have hpiece := SpellsPiece.number ha hb hc hd
      rw [Nat.zero_mul, Nat.zero_add] at hrest
      exact ⟨.unit _, [l, a, b, c, d], rest, rfl, hu ▸ hpiece, hrest⟩
    · simp only [add?, if_neg hu] at hnext
      obtain ⟨c, hc, rfl⟩ := Option.map_eq_some_iff.mp hnext
      exact ⟨.char c, [l], cs, rfl, .letter hc, hrest⟩

/-- A string that is not inside an escape was read piece by piece. -/
theorem exists_spellsPieces_of_addAll? {s s' : Chars} {cs : List Char} (hs : s.escape = .none)
    (h : s.addAll? cs = some s') (hs' : s'.escape = .none) :
    ∃ ps, SpellsPieces ps cs ∧ s' = ps.foldl addPiece s := by
  induction hlength : cs.length using Nat.strongRecOn generalizing s cs with
  | ind length ih =>
    subst hlength
    cases cs with
    | nil =>
      obtain rfl := Option.some.inj h
      exact ⟨[], .nil, rfl⟩
    | cons c cs =>
      have hpiece : ∃ p front rest, c :: cs = front ++ rest ∧ SpellsPiece p front ∧
          front ≠ [] ∧ (s.addPiece p).addAll? rest = some s' := by
        rw [addAll?] at h
        split at h
        · cases h
        · next hquote =>
          obtain ⟨next, hnext, hrest⟩ := Option.bind_eq_some_iff.mp h
          simp only [add?, hs] at hnext
          split at hnext
          · next hslash =>
            obtain rfl := Option.some.inj hnext
            obtain ⟨p, front, rest, rfl, hfront, hrest⟩ := exists_of_addAll?_slash hrest hs'
            exact ⟨p, c :: front, rest, rfl, hslash ▸ hfront, List.cons_ne_nil _ _, hrest⟩
          · next hslash =>
            split at hnext
            · cases hnext
            · next hcontrol =>
              obtain rfl := Option.some.inj hnext
              have hc : c ≠ '"' := fun hc => hquote ⟨hc, hs⟩
              exact ⟨.char c, [c], cs, rfl, .plain (Nat.not_lt.mp hcontrol) hc hslash,
                List.cons_ne_nil _ _, hrest⟩
      obtain ⟨p, front, rest, heq, hfront, hne, hrest⟩ := hpiece
      have hshort : rest.length < (c :: cs).length := by
        have hpos : 0 < front.length := List.length_pos_of_ne_nil hne
        rw [heq, List.length_append]
        omega
      obtain ⟨ps, hps, rfl⟩ := ih _ hshort (escape_addPiece s p) hrest rfl
      exact ⟨p :: ps, heq ▸ .cons hfront hps, rfl⟩

/-! A code unit is put in one of four ways, as it is a half or none and
as a half waits or none does. -/

theorem putUnit_pair {s : Chars} {n m : Nat} (hm : IsSecondHalf m) (hn : s.pending = some n) :
    s.putUnit m = ⟨pairChar n m :: s.read, none, s.paired, .none⟩ := by
  refine (if_pos hm).trans ?_
  rw [hn]
  rfl

theorem putUnit_second {s : Chars} {m : Nat} (hm : IsSecondHalf m) (hs : s.pending = none) :
    s.putUnit m = ⟨s.read, none, false, .none⟩ := by
  refine (if_pos hm).trans ?_
  rw [hs]

theorem putUnit_first (s : Chars) {m : Nat} (hm : IsFirstHalf m) :
    s.putUnit m = ⟨s.read, some m, s.paired && s.pending.isNone, .none⟩ := by
  have hsecond : ¬ IsSecondHalf m := fun h => h.not_isFirstHalf hm
  exact (if_neg hsecond).trans (if_pos hm)

theorem putUnit_plain (s : Chars) {m : Nat} (hfirst : ¬ IsFirstHalf m) (hsecond : ¬ IsSecondHalf m) :
    s.putUnit m = s.put (Char.ofNat m) :=
  (if_neg hsecond).trans (if_neg hfirst)

/-- Once a half stays alone a string says nothing. -/
theorem text_addPieces_of_not_paired {s : Chars} (hs : s.paired = false) (ps : List Piece) :
    (ps.foldl addPiece s).text = none := by
  induction ps generalizing s with
  | nil => simp [text, hs]
  | cons p ps ih =>
    refine ih ?_
    cases p with
    | char c => simp [addPiece, put, hs]
    | unit m =>
      rw [addPiece]
      by_cases hsecond : IsSecondHalf m
      · cases hpending : s.pending with
        | none => rw [putUnit_second hsecond hpending]
        | some n =>
          rw [putUnit_pair hsecond hpending]
          exact hs
      by_cases hfirst : IsFirstHalf m
      · rw [putUnit_first s hfirst]
        simp [hs]
      · rw [putUnit_plain s hfirst hsecond]
        simp [put, hs]

/-- What a string says, of which some was read before: a half that waits
counts as the first of the pieces to come. -/
theorem text_addPieces_of_paired {read : List Char} {pending : Option Nat}
    (hpending : ∀ n ∈ pending, IsFirstHalf n) (ps : List Piece) :
    (ps.foldl addPiece ⟨read, pending, true, .none⟩).text =
      (Piece.chars? (pending.toList.map Piece.unit ++ ps)).map fun cs =>
        String.ofList (read.reverse ++ cs) := by
  induction ps generalizing read pending with
  | nil =>
    cases pending with
    | none => simp [text, Piece.chars?]
    | some n => simp [text, Piece.chars?, hpending n rfl]
  | cons p ps ih =>
    -- no half waits once a character was put
    have hnext (c : Char) : (ps.foldl addPiece ⟨c :: read, none, true, .none⟩).text =
        ((Piece.chars? ps).map (c :: ·)).map fun cs => String.ofList (read.reverse ++ cs) := by
      rw [ih (fun n hn => absurd hn (Option.not_mem_none n))]
      simp [Function.comp_def]
    rw [List.foldl_cons]
    cases pending with
    | none =>
      cases p with
      | char c => exact hnext c
      | unit m =>
        rw [Option.toList_none, List.map_nil, List.nil_append, addPiece]
        by_cases hsecond : IsSecondHalf m
        · rw [putUnit_second hsecond rfl, text_addPieces_of_not_paired rfl,
            Piece.chars?_second hsecond, Option.map_none]
        by_cases hfirst : IsFirstHalf m
        · rw [putUnit_first _ hfirst]
          exact ih fun n hn => Option.some.inj hn ▸ hfirst
        · rw [putUnit_plain _ hfirst hsecond, Piece.chars?_plain hfirst hsecond]
          exact hnext (Char.ofNat m)
    | some n =>
      have hn : IsFirstHalf n := hpending n rfl
      rw [Option.toList_some, List.map_singleton, List.singleton_append]
      by_cases hpair : ∃ m, p = .unit m ∧ IsSecondHalf m
      · obtain ⟨m, rfl, hm⟩ := hpair
        rw [addPiece, putUnit_pair hm rfl, Piece.chars?_pair hn hm]
        exact hnext (pairChar n m)
      · have halone : ∀ m, p = .unit m → ¬ IsSecondHalf m := fun m hp hm => hpair ⟨m, hp, hm⟩
        rw [Piece.chars?_alone hn halone, Option.map_none]
        refine text_addPieces_of_not_paired ?_ ps
        cases p with
        | char c => rfl
        | unit m =>
          rw [addPiece]
          by_cases hfirst : IsFirstHalf m
          · rw [putUnit_first _ hfirst]
            rfl
          · rw [putUnit_plain _ hfirst (halone m rfl)]
            rfl

/-- **The reader takes the strings of the grammar**, and what it takes
them to say is what they say. -/
theorem exists_addAll?_start_iff {cs : List Char} {t : Option String} :
    (∃ s, start.addAll? cs = some s ∧ s.escape = .none ∧ s.text = t) ↔
      SpellsString t ('"' :: (cs ++ ['"'])) := by
  have htext (ps : List Piece) :
      (ps.foldl addPiece start).text = (Piece.chars? ps).map String.ofList :=
    text_addPieces_of_paired (fun n hn => absurd hn (Option.not_mem_none n)) ps
  constructor
  · rintro ⟨s, hadd, hescape, rfl⟩
    obtain ⟨ps, hps, rfl⟩ := exists_spellsPieces_of_addAll? rfl hadd hescape
    rw [htext]
    exact .mk hps
  · intro h
    generalize hquoted : '"' :: (cs ++ ['"']) = quoted at h
    cases h with
    | @mk ps inside hps =>
      obtain rfl := List.append_cancel_right (List.cons.inj hquoted).2
      exact ⟨_, addAll?_of_spellsPieces hps rfl, escape_addPieces rfl ps, htext ps⟩

end Chars

end Json

end LayerQuery
