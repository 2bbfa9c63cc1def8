import LayerQuery.Proofs.Lists
import LayerQuery.Proofs.Token
import Mathlib.Data.List.TakeWhile
/-!
# Formulas of a query

How the tokens of a query are read as a formula: `AND` and `OR` join,
`AND` binds tighter, parentheses group, and whatever stands between is
an atom, be it a comparison, a list of values or a call. An atom may
hold parentheses of its own, but only in pairs, and what stands inside
them belongs to it.

A connective outside all parentheses is therefore never part of what it
joins, and the first such connective of a text is where its reading has
to part: no text has two readings (`reads_unique`).
-/

namespace LayerQuery

namespace Sql

/-! ## Truth values and formulas -/

/-- What a test comes to; it is unknown where a value is missing. -/
inductive Truth where
  | holds
  | fails
  | unknown
  deriving DecidableEq, Repr

namespace Truth

/-- Both hold. -/
def and : Truth → Truth → Truth
  | .fails, _ | _, .fails => .fails
  | .holds, .holds => .holds
  | _, _ => .unknown

/-- One of them holds. -/
def or : Truth → Truth → Truth
  | .holds, _ | _, .holds => .holds
  | .fails, .fails => .fails
  | _, _ => .unknown

end Truth

/-- A formula over atoms, which are texts. -/
inductive Formula where
  | atom (text : String)
  | and (left right : Formula)
  | or (left right : Formula)
  deriving DecidableEq, Repr

namespace Formula

/-- The atoms of a formula, from left to right. -/
def atoms : Formula → List String
  | atom text => [text]
  | and left right | or left right => left.atoms ++ right.atoms

/-- What a formula comes to, given what its atoms come to, from left to
right. -/
def eval : Formula → List Truth → Truth
  | atom _, truths => truths.headD .unknown
  | and left right, truths =>
    (left.eval (truths.take left.atoms.length)).and (right.eval (truths.drop left.atoms.length))
  | or left right, truths =>
    (left.eval (truths.take left.atoms.length)).or (right.eval (truths.drop left.atoms.length))

end Formula

/-! ## Connectives and parentheses -/

/-- The token is a word, in whatever case. -/
def Token.isKeyword (keyword : String) : Token → Bool
  | .word w => w.map Text.lowerChar = keyword.toList
  | _ => false

/-- How much of a formula a text is: all of it, or a part that one of
the connectives, or any of them, joins to others. -/
inductive Level where
  | factor
  | conjunction
  | disjunction
  deriving DecidableEq, Repr

/-- The connectives that a text of a level does not hold outside
parentheses. -/
def Level.isBarred : Level → Token → Bool
  | .factor, t => t.isKeyword "and" || t.isKeyword "or"
  | .conjunction, t => t.isKeyword "or"
  | .disjunction, _ => false

/-- How many parentheses are open after one token more. There is no way
past a parenthesis that closes none, nor past a barred token outside
parentheses. -/
def Level.depth (l : Level) : Nat → Token → Option Nat
  | d, .opening => some (d + 1)
  | 0, .closing => none
  | d + 1, .closing => some d
  | 0, t => if l.isBarred t then none else some 0
  | d + 1, _ => some (d + 1)

/-- How many are open after some tokens. -/
def Level.depthAfter (l : Level) (d : Nat) (ts : List Token) : Option Nat :=
  ts.foldlM l.depth d

/-- The parentheses match, and no barred token stands outside them. -/
def Level.IsClosed (l : Level) (ts : List Token) : Prop :=
  l.depthAfter 0 ts = some 0

/-! ## Reading -/

/-- The token is nothing but a blank. -/
def Token.isBlank : Token → Bool
  | .blank _ => true
  | _ => false

/-- Tokens without the blanks at their ends. -/
def strip (ts : List Token) : List Token :=
  ((ts.dropWhile Token.isBlank).reverse.dropWhile Token.isBlank).reverse

/-- The text of some tokens. -/
def spelling (ts : List Token) : String :=
  String.ofList (ts.flatMap Token.chars)

/-- Tokens that are one atom: there are some, they do not start with a
parenthesis, and no connective stands outside parentheses. -/
def IsAtom (ts : List Token) : Prop :=
  ts ≠ [] ∧ ts.head? ≠ some .opening ∧ Level.factor.IsClosed ts

/-- Tokens read as a formula. -/
inductive Reads : Level → List Token → Formula → Prop
  /-- An atom, with or without blanks around it. -/
  | atom {ts : List Token} (h : IsAtom (strip ts)) :
    Reads .factor ts (.atom (spelling (strip ts)))
  /-- A formula between parentheses. -/
  | group {ts inner : List Token} {e : Formula} (hts : strip ts = .opening :: (inner ++ [.closing]))
    (h : Reads .disjunction inner e) : Reads .factor ts e
  | factor {ts : List Token} {e : Formula} (h : Reads .factor ts e) : Reads .conjunction ts e
  | and {ts left right : List Token} {t : Token} {e f : Formula} (hts : ts = left ++ t :: right)
    (ht : t.isKeyword "and") (hleft : Reads .factor left e) (hright : Reads .conjunction right f) :
    Reads .conjunction ts (.and e f)
  | conjunction {ts : List Token} {e : Formula} (h : Reads .conjunction ts e) :
    Reads .disjunction ts e
  | or {ts left right : List Token} {t : Token} {e f : Formula} (hts : ts = left ++ t :: right)
    (ht : t.isKeyword "or") (hleft : Reads .conjunction left e)
    (hright : Reads .disjunction right f) : Reads .disjunction ts (.or e f)

/-- A text read as a formula. -/
def IsReadAs (text : String) (e : Formula) : Prop :=
  ∃ ts, scan text.toList = some ts ∧ Reads .disjunction ts e

/-! ## Depth -/

section Depth

variable {l l' : Level} {d d' : Nat} {t : Token} {ts us : List Token}

theorem depthAfter_append :
    l.depthAfter d (ts ++ us) = (l.depthAfter d ts).bind (l.depthAfter · us) :=
  List.foldlM_append

theorem depthAfter_cons :
    l.depthAfter d (t :: ts) = (l.depth d t).bind (l.depthAfter · ts) :=
  List.foldlM_cons

theorem Level.IsClosed.append (hts : l.IsClosed ts) (hus : l.IsClosed us) :
    l.IsClosed (ts ++ us) := by
  unfold IsClosed at *
  rw [depthAfter_append, hts]
  exact hus

/-- A barred token is a word. -/
theorem exists_word_of_isBarred (h : l.isBarred t = true) : ∃ w, t = .word w := by
  cases t with
  | word w => exact ⟨w, rfl⟩
  | _ => cases l <;> simp [Level.isBarred, Token.isKeyword] at h

theorem depth_of_isBarred (h : l.isBarred t = true) : l.depth 0 t = none := by
  obtain ⟨w, rfl⟩ := exists_word_of_isBarred h
  simp [Level.depth, h]

/-- What bars fewer tokens lets as many pass. -/
theorem depth_mono (hbarred : l.isBarred t = true → l'.isBarred t = true)
    (h : l'.depth d t = some d') : l.depth d t = some d' := by
  cases d with
  | succ d => cases t <;> exact h
  | zero => cases t <;> simp_all [Level.depth]

theorem depthAfter_mono (hbarred : ∀ t, l.isBarred t = true → l'.isBarred t = true)
    (h : l'.depthAfter d ts = some d') : l.depthAfter d ts = some d' := by
  induction ts generalizing d with
  | nil => exact h
  | cons t ts ih =>
    rw [depthAfter_cons] at h ⊢
    obtain ⟨middle, hmiddle, hrest⟩ := Option.bind_eq_some_iff.mp h
    rw [depth_mono (hbarred t) hmiddle]
    exact ih hrest

/-- Inside parentheses nothing is barred. -/
theorem depth_succ (h : l.depth d t = some d') : l'.depth (d + 1) t = some (d' + 1) := by
  cases d with
  | succ d => cases t <;> simp_all [Level.depth]
  | zero => cases t <;> simp_all [Level.depth]

theorem depthAfter_succ (h : l.depthAfter d ts = some d') :
    l'.depthAfter (d + 1) ts = some (d' + 1) := by
  induction ts generalizing d with
  | nil =>
    obtain rfl := Option.some.inj h
    rfl
  | cons t ts ih =>
    rw [depthAfter_cons] at h ⊢
    obtain ⟨middle, hmiddle, hrest⟩ := Option.bind_eq_some_iff.mp h
    rw [depth_succ hmiddle]
    exact ih hrest

/-- So a pair of parentheses closes whatever is closed at some level. -/
theorem Level.IsClosed.parenthesized (h : l.IsClosed ts) :
    l'.IsClosed (.opening :: (ts ++ [.closing])) := by
  unfold IsClosed
  rw [depthAfter_cons]
  change l'.depthAfter 1 (ts ++ [.closing]) = some 0
  rw [depthAfter_append, depthAfter_succ h]
  rfl

/-- A closed text cannot go on past a barred token. -/
theorem not_isClosed_append_cons (hts : l.IsClosed ts) (ht : l.isBarred t = true) :
    ¬ l.IsClosed (ts ++ t :: us) := by
  unfold Level.IsClosed at *
  -- no parenthesis is open where the barred token comes
  rw [depthAfter_append, hts, Option.bind_some, depthAfter_cons, depth_of_isBarred ht,
    Option.bind_none]
  exact (Option.some_ne_none 0).symm

/-- **A text parts at its first barred token, and nowhere else.** -/
theorem eq_and_eq_of_isClosed {ts' us' : List Token} {t' : Token} (hts : l.IsClosed ts)
    (hts' : l.IsClosed ts') (ht : l.isBarred t = true) (ht' : l.isBarred t' = true)
    (h : ts ++ t :: us = ts' ++ t' :: us') : ts = ts' ∧ us = us' :=
  eq_and_eq_of_append_cons l.IsClosed hts hts' (fun _ => not_isClosed_append_cons hts ht)
    (fun _ => not_isClosed_append_cons hts' ht') h

end Depth

/-! ## Blanks at the ends -/

section Ends

variable {l : Level} {ts : List Token}

@[simp] theorem isBlank_blank (c : Char) : (Token.blank c).isBlank = true := rfl

theorem exists_strip (ts : List Token) :
    ∃ before behind, ts = before ++ (strip ts ++ behind) ∧
      (∀ t ∈ before, t.isBlank = true) ∧ ∀ t ∈ behind, t.isBlank = true := by
  obtain ⟨before, behind, hts, hbefore, hbehind⟩ := exists_eq_append_stripped Token.isBlank ts
  exact ⟨before, behind, hts, fun t ht => List.mem_takeWhile_imp (hbefore t ht),
    fun t ht => List.mem_takeWhile_imp (hbehind t ht)⟩

theorem strip_cons_blank (c : Char) (ts : List Token) : strip (.blank c :: ts) = strip ts := by
  simp [strip, List.dropWhile_cons]

theorem strip_append_blank (c : Char) (ts : List Token) :
    strip (ts ++ [.blank c]) = strip ts := by
  unfold strip
  rw [List.dropWhile_append]
  split
  · rename_i h
    simp [List.isEmpty_iff.mp h, List.dropWhile_cons]
  · simp [List.dropWhile_cons]

/-- Nothing is taken off between two tokens that are no blanks. -/
theorem strip_eq_self {first last : Token} (hfirst : first.isBlank = false)
    (hlast : last.isBlank = false) (ts : List Token) :
    strip (first :: (ts ++ [last])) = first :: (ts ++ [last]) := by
  simp [strip, hfirst, hlast]

theorem depthAfter_of_isBlank {d : Nat} (h : ∀ t ∈ ts, t.isBlank = true) :
    l.depthAfter d ts = some d := by
  induction ts with
  | nil => rfl
  | cons t ts ih =>
    obtain ⟨ht, hts⟩ := List.forall_mem_cons.mp h
    have hdepth : l.depth d t = some d := by
      cases t with
      | blank c => cases d <;> cases l <;> simp [Level.depth, Level.isBarred, Token.isKeyword]
      | _ => cases ht
    rw [depthAfter_cons, hdepth]
    exact ih hts

theorem isClosed_strip : l.IsClosed (strip ts) ↔ l.IsClosed ts := by
  obtain ⟨before, behind, hts, hbefore, hbehind⟩ := exists_strip ts
  have hdepth : l.depthAfter 0 ts = l.depthAfter 0 (strip ts) := by
    conv_lhs => rw [hts]
    rw [depthAfter_append, depthAfter_of_isBlank hbefore, Option.bind_some, depthAfter_append]
    simp [depthAfter_of_isBlank hbehind]
  unfold Level.IsClosed
  rw [hdepth]

end Ends

/-- Outer blanks do not matter to a factor. -/
theorem Reads.of_strip_eq {ts us : List Token} {e : Formula} (h : Reads .factor ts e)
    (hus : strip us = strip ts) : Reads .factor us e := by
  cases h with
  | atom hatom =>
    rw [← hus] at hatom ⊢
    exact .atom hatom
  | group hts hinner => exact .group (hus.trans hts) hinner

/-- Nor does a blank in front of anything else. -/
theorem Reads.cons_blank {l : Level} {ts : List Token} {e : Formula} (h : Reads l ts e)
    (c : Char) : Reads l (.blank c :: ts) e := by
  induction h with
  | atom hatom => exact (Reads.atom hatom).of_strip_eq (strip_cons_blank c _)
  | group hts hinner _ => exact .group ((strip_cons_blank c _).trans hts) hinner
  | factor _ ih => exact .factor ih
  | and hts ht _ hright ih _ => exact .and (by rw [hts, List.cons_append]) ht ih hright
  | conjunction _ ih => exact .conjunction ih
  | or hts ht _ hright ih _ => exact .or (by rw [hts, List.cons_append]) ht ih hright

/-! ## One reading -/

theorem not_isKeyword_or {t : Token} (h : t.isKeyword "and" = true) : t.isKeyword "or" = false := by
  cases t with
  | word w =>
    simp only [Token.isKeyword, decide_eq_true_eq, decide_eq_false_iff_not] at h ⊢
    rw [h]
    decide
  | _ => cases h

theorem Level.isBarred_factor {l : Level} {t : Token} (h : l.isBarred t = true) :
    Level.factor.isBarred t = true := by
  cases l <;> simp_all [Level.isBarred]

/-- A keyword that is not barred stands between closed texts. -/
theorem Level.IsClosed.around {l : Level} {left right : List Token} {t : Token} {keyword : String}
    (hleft : l.IsClosed left) (hright : l.IsClosed right) (ht : t.isKeyword keyword = true)
    (hbarred : l.isBarred t = false) : l.IsClosed (left ++ t :: right) := by
  cases t with
  | word w =>
    have hmiddle : l.IsClosed [.word w] := by
      simp [IsClosed, depthAfter, depth, hbarred]
    exact hleft.append (hmiddle.append hright)
  | _ => cases ht

/-- **What is read is closed**: its connectives stand where its level
lets them. -/
theorem Reads.isClosed {l : Level} {ts : List Token} {e : Formula} (h : Reads l ts e) :
    l.IsClosed ts := by
  induction h with
  | atom h => exact isClosed_strip.mp h.2.2
  | group hts _ ih =>
    rw [← isClosed_strip, hts]
    exact ih.parenthesized
  | factor _ ih => exact depthAfter_mono (fun _ => Level.isBarred_factor) ih
  | and hts ht _ _ ihleft ihright =>
    rw [hts]
    have hopen : Level.conjunction.IsClosed _ :=
      depthAfter_mono (fun _ => Level.isBarred_factor) ihleft
    exact hopen.around ihright ht (not_isKeyword_or ht)
  | conjunction _ ih => exact depthAfter_mono (fun _ ht => absurd ht Bool.false_ne_true) ih
  | or hts ht _ _ ihleft ihright =>
    rw [hts]
    have hopen : Level.disjunction.IsClosed _ :=
      depthAfter_mono (fun _ ht => absurd ht Bool.false_ne_true) ihleft
    exact hopen.around ihright ht rfl

/-- A text that parts at a connective is not read whole at the level
below, where that connective is barred. -/
theorem Reads.not_of_parts {l : Level} {ts left right : List Token} {t : Token} {e f : Formula}
    (hts : ts = left ++ t :: right) (hleft : Reads l left e) (ht : l.isBarred t = true) :
    ¬ Reads l ts f := by
  intro h
  rw [hts] at h
  exact not_isClosed_append_cons hleft.isClosed ht h.isClosed

/-- **No tokens have two readings.** -/
theorem reads_unique {l : Level} {ts : List Token} {e e' : Formula} (h : Reads l ts e)
    (h' : Reads l ts e') : e = e' := by
  induction h generalizing e' with
  | atom hatom =>
    cases h' with
    | atom => rfl
    | group hts _ =>
      -- an atom does not start with a parenthesis
      refine absurd ?_ hatom.2.1
      rw [hts]
      rfl
  | group hts _ ih =>
    cases h' with
    | atom hatom =>
      refine absurd ?_ hatom.2.1
      rw [hts]
      rfl
    | group hts' hinner =>
      have hsame := (List.cons.inj (hts.symm.trans hts')).2
      rw [← List.append_cancel_right hsame] at hinner
      exact ih hinner
  | factor h ih =>
    cases h' with
    | factor h' => exact ih h'
    | and hts ht hleft _ =>
      have hbarred : Level.factor.isBarred _ = true := Bool.or_eq_true_iff.mpr (.inl ht)
      exact absurd h (Reads.not_of_parts hts hleft hbarred)
  | and hts ht hleft hright ihleft ihright =>
    have hbarred : Level.factor.isBarred _ = true := Bool.or_eq_true_iff.mpr (.inl ht)
    -- both readings part outside parentheses, hence at the same token
    cases h' with
    | factor h' => exact absurd h' (Reads.not_of_parts hts hleft hbarred)
    | and hts' ht' hleft' hright' =>
      have hbarred' : Level.factor.isBarred _ = true := Bool.or_eq_true_iff.mpr (.inl ht')
      obtain ⟨rfl, rfl⟩ := eq_and_eq_of_isClosed hleft.isClosed hleft'.isClosed hbarred hbarred'
        (hts.symm.trans hts')
      rw [ihleft hleft', ihright hright']
  | conjunction h ih =>
    cases h' with
    | conjunction h' => exact ih h'
    | or hts ht hleft _ => exact absurd h (Reads.not_of_parts hts hleft ht)
  | or hts ht hleft hright ihleft ihright =>
    cases h' with
    | conjunction h' => exact absurd h' (Reads.not_of_parts hts hleft ht)
    | or hts' ht' hleft' hright' =>
      obtain ⟨rfl, rfl⟩ := eq_and_eq_of_isClosed hleft.isClosed hleft'.isClosed ht ht'
        (hts.symm.trans hts')
      rw [ihleft hleft', ihright hright']

/-- **No text has two readings.** -/
theorem isReadAs_unique {text : String} {e e' : Formula} (h : IsReadAs text e)
    (h' : IsReadAs text e') : e = e' := by
  obtain ⟨ts, hts, h⟩ := h
  obtain ⟨ts', hts', h'⟩ := h'
  obtain rfl := Option.some.inj (hts.symm.trans hts')
  exact reads_unique h h'

end Sql

end LayerQuery
