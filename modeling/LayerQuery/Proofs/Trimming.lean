import LayerQuery.Proofs.Lists
import LayerQuery.Text.Blank
import Mathlib.Data.List.TakeWhile
/-!
# Blanks around a text

Trimming takes the blanks off both ends of a text, and nothing else: what
is left stands in the text between blanks (`exists_blanks_around_trim`),
and a body that holds no blank is found again between any blanks
(`trimChars_surrounded`). Keywords are trimmed before they are compared,
so a keyword that is put together of two around an underscore comes apart
into the two, if there is no blank left in it (`keyword_append`).
-/

namespace LayerQuery

namespace Text

/-- All of the characters are blanks. -/
def AreBlank (cs : List Char) : Prop :=
  ∀ c ∈ cs, isBlank c = true

/-- None of the characters is a blank. -/
def IsSolid (cs : List Char) : Prop :=
  ∀ c ∈ cs, isBlank c = false

variable {front body back cs : List Char}

/-! ## Trimming -/

theorem dropWhile_of_isSolid (h : IsSolid cs) : cs.dropWhile isBlank = cs := by
  cases cs with
  | nil => rfl
  | cons c cs => rw [List.dropWhile_cons, h c List.mem_cons_self, if_neg Bool.false_ne_true]

/-- What stands behind a character that is no blank is not dropped. -/
theorem dropWhile_append_cons {c : Char} (hc : isBlank c = false) (cs cs' : List Char) :
    (cs ++ c :: cs').dropWhile isBlank = cs.dropWhile isBlank ++ c :: cs' := by
  rw [List.dropWhile_append, List.dropWhile_cons, hc, if_neg Bool.false_ne_true]
  split
  · next hnone => rw [List.isEmpty_iff.mp hnone, List.nil_append]
  · rfl

theorem trimChars_of_areBlank (h : AreBlank cs) : trimChars cs = [] := by
  rw [trimChars, List.dropWhile_eq_nil_iff.mpr h]
  rfl

/-- The two ends are trimmed apart where a character is no blank. -/
theorem trimChars_append_cons {c : Char} (hc : isBlank c = false) (cs cs' : List Char) :
    trimChars (cs ++ c :: cs') =
      cs.dropWhile isBlank ++ c :: (cs'.reverse.dropWhile isBlank).reverse := by
  rw [trimChars, dropWhile_append_cons hc, List.reverse_append, List.reverse_cons,
    List.append_assoc, List.singleton_append, dropWhile_append_cons hc, List.reverse_append,
    List.reverse_cons, List.reverse_reverse, List.append_assoc, List.singleton_append]

/-- **A body without blanks is found between blanks.** -/
theorem trimChars_surrounded (hfront : AreBlank front) (hbody : IsSolid body)
    (hback : AreBlank back) : trimChars (front ++ (body ++ back)) = body := by
  cases body with
  | nil =>
    exact trimChars_of_areBlank fun c hc =>
      (List.mem_append.mp hc).elim (hfront c) (hback c)
  | cons c body =>
    have hc : isBlank c = false := hbody c List.mem_cons_self
    have hrest : IsSolid body.reverse := fun d hd =>
      hbody d (List.mem_cons_of_mem _ (List.mem_reverse.mp hd))
    have hblank : ∀ d ∈ back.reverse, isBlank d = true := fun d hd =>
      hback d (List.mem_reverse.mp hd)
    rw [List.cons_append, trimChars_append_cons hc, List.dropWhile_eq_nil_iff.mpr hfront,
      List.reverse_append, List.dropWhile_append_of_pos hblank, dropWhile_of_isSolid hrest,
      List.reverse_reverse, List.nil_append]

/-- A text without blanks is not trimmed. -/
theorem trimChars_eq_self (h : IsSolid cs) : trimChars cs = cs := by
  have hnone : AreBlank [] := nofun
  have hsame := trimChars_surrounded hnone h hnone
  rwa [List.nil_append, List.append_nil] at hsame

/-- What is taken off a text are blanks. -/
theorem exists_blanks_around_trim (s : String) :
    ∃ front back, AreBlank front ∧ AreBlank back ∧
      s.toList = front ++ ((trim s).toList ++ back) := by
  obtain ⟨front, back, hs, hfront, hback⟩ := exists_eq_append_stripped isBlank s.toList
  refine ⟨front, back, fun c hc => List.mem_takeWhile_imp (hfront c hc),
    fun c hc => List.mem_takeWhile_imp (hback c hc), ?_⟩
  rwa [toList_trim]

/-! ## Keywords -/

theorem toList_keyword (s : String) : (keyword s).toList = (trimChars s.toList).map lowerChar := by
  rw [keyword, toList_lower, toList_trim]

/-- Lowering leaves blanks as they are. -/
theorem lowerChar_of_isBlank {c : Char} (h : isBlank c = true) : lowerChar c = c := by
  refine if_neg fun hcapital => ?_
  have hcode : 65 ≤ c.toNat ∧ c.toNat ≤ 90 := hcapital
  simp only [isBlank, Bool.or_eq_true, Bool.and_eq_true, decide_eq_true_eq, beq_iff_eq] at h
  omega

/-- What has no blank when it is lowered has none before. -/
theorem isSolid_of_isSolid_map (h : IsSolid (cs.map lowerChar)) : IsSolid cs := by
  intro c hc
  by_contra hblank
  rw [Bool.not_eq_false] at hblank
  have hsame := h (lowerChar c) (List.mem_map_of_mem hc)
  rw [lowerChar_of_isBlank hblank, hblank] at hsame
  cases hsame

/-- If no blank is left behind the first ones, there is none at the end. -/
theorem trimChars_eq_dropWhile (h : IsSolid (cs.dropWhile isBlank)) :
    trimChars cs = cs.dropWhile isBlank := by
  have hreverse : IsSolid (cs.dropWhile isBlank).reverse := fun c hc =>
    h c (List.mem_reverse.mp hc)
  rw [trimChars, dropWhile_of_isSolid hreverse, List.reverse_reverse]

/-- If no blank is left before the last ones, there is none in front. -/
theorem trimChars_eq_reverse_dropWhile (h : IsSolid (cs.reverse.dropWhile isBlank).reverse) :
    trimChars cs = (cs.reverse.dropWhile isBlank).reverse := by
  have hcs : cs = [] ++
      ((cs.reverse.dropWhile isBlank).reverse ++ (cs.reverse.takeWhile isBlank).reverse) := by
    rw [List.nil_append, ← List.reverse_append, List.takeWhile_append_dropWhile,
      List.reverse_reverse]
  have hnone : AreBlank [] := nofun
  have hback : AreBlank (cs.reverse.takeWhile isBlank).reverse := fun c hc =>
    List.mem_takeWhile_imp (List.mem_reverse.mp hc)
  exact (congrArg trimChars hcs).trans (trimChars_surrounded hnone h hback)

/-- **A keyword without blanks comes apart at an underscore**, into what
are keywords before and behind it. -/
theorem keyword_append {s s' : String} (h : IsSolid (keyword (s ++ "_" ++ s')).toList) :
    keyword (s ++ "_" ++ s') = keyword s ++ "_" ++ keyword s' := by
  have hparts : (keyword (s ++ "_" ++ s')).toList =
      (s.toList.dropWhile isBlank).map lowerChar ++
        '_' :: (s'.toList.reverse.dropWhile isBlank).reverse.map lowerChar := by
    rw [toList_keyword, String.toList_append, String.toList_append, List.append_assoc]
    change (trimChars (s.toList ++ '_' :: s'.toList)).map lowerChar = _
    rw [trimChars_append_cons (by decide), List.map_append, List.map_cons]
    rfl
  rw [hparts] at h
  have hbefore : trimChars s.toList = s.toList.dropWhile isBlank :=
    trimChars_eq_dropWhile (isSolid_of_isSolid_map fun c hc => h c (List.mem_append_left _ hc))
  have hbehind : trimChars s'.toList = (s'.toList.reverse.dropWhile isBlank).reverse :=
    trimChars_eq_reverse_dropWhile (isSolid_of_isSolid_map fun c hc =>
      h c (List.mem_append_right _ (List.mem_cons_of_mem _ hc)))
  rw [← String.toList_inj, hparts, String.toList_append, String.toList_append, toList_keyword,
    toList_keyword, hbefore, hbehind, List.append_assoc]
  rfl

end Text

end LayerQuery
