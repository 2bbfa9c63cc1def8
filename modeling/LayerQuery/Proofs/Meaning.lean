import LayerQuery.Proofs.Atom
/-!
# Trees and the formulas they are written as

The text of a tree is read in one way only, and means what the tree
means. Each group is a formula between parentheses, whose atoms are the
texts of its conditions, and so is the tree over its groups. The same
step serves twice: texts that are factors, joined by a connective
between parentheses, are a factor (`isFactorText_joined`), and its value
folds the connective over theirs (`eval_join`).
-/

namespace LayerQuery

open Sql Relations

namespace Criteria

/-! ## Connectives -/

namespace Connective

/-- A connective between two formulas. -/
def formula : Connective → Formula → Formula → Formula
  | .and => .and
  | .or => .or

/-- A connective between formulas, grouped from the right. -/
def join (c : Connective) : Formula → List Formula → Formula
  | e, [] => e
  | e, f :: fs => c.formula e (c.join f fs)

/-- A connective between two truth values. -/
def truth : Connective → Truth → Truth → Truth
  | .and => .and
  | .or => .or

/-- What a connective comes to over nothing. -/
def unit : Connective → Truth
  | .and => .holds
  | .or => .fails

/-- A connective folded over truth values. -/
def fold (c : Connective) (truths : List Truth) : Truth :=
  truths.foldr c.truth c.unit

/-- The level of what a connective joins. -/
def level : Connective → Level
  | .and => .conjunction
  | .or => .disjunction

variable {c : Connective}

theorem truth_unit (b : Truth) : c.truth b c.unit = b := by
  cases c <;> cases b <;> rfl

theorem eval_formula {e f : Formula} {v w : List Truth} (hv : v.length = e.atoms.length) :
    (c.formula e f).eval (v ++ w) = c.truth (e.eval v) (f.eval w) := by
  have htake : (v ++ w).take e.atoms.length = v := List.take_left' hv
  have hdrop : (v ++ w).drop e.atoms.length = w := List.drop_left' hv
  cases c <;> simp only [formula, Formula.eval, truth, htake, hdrop]

theorem atoms_formula (e f : Formula) : (c.formula e f).atoms = e.atoms ++ f.atoms := by
  cases c <;> rfl

theorem atoms_join (e : Formula) (es : List Formula) :
    (c.join e es).atoms = e.atoms ++ es.flatMap Formula.atoms := by
  induction es generalizing e with
  | nil => simp [join]
  | cons f fs ih => rw [join, atoms_formula, ih, List.flatMap_cons]

/-- **The value of what is joined folds the connective over the values
of the parts.** -/
theorem eval_join {e : Formula} {es : List Formula} {v : List Truth} {vs : List (List Truth)}
    (hv : v.length = e.atoms.length)
    (hvs : List.Forall₂ (fun w f => w.length = f.atoms.length) vs es) :
    (c.join e es).eval (v ++ vs.flatten) =
      c.fold (List.zipWith Formula.eval (e :: es) (v :: vs)) := by
  induction hvs generalizing e v with
  | nil => simp [join, fold, truth_unit]
  | cons hw _ ih =>
    rw [join, List.flatten_cons, eval_formula hv, ih hw]
    rfl

theorem reads_factor {ts : List Token} {e : Formula} (h : Reads .factor ts e) :
    Reads c.level ts e := by
  cases c with
  | and => exact .factor h
  | or => exact .conjunction (.factor h)

theorem reads_disjunction {ts : List Token} {e : Formula} (h : Reads c.level ts e) :
    Reads .disjunction ts e := by
  cases c with
  | and => exact .conjunction h
  | or => exact h

theorem reads_formula {ts us : List Token} {e f : Formula} (hts : Reads .factor ts e)
    (hus : Reads c.level us f) :
    Reads c.level (ts ++ .word c.word.toList :: us) (c.formula e f) := by
  cases c with
  | and => exact .and rfl (by decide) hts hus
  | or => exact .or rfl (by decide) (.factor hts) hus

end Connective

/-! ## Joined texts -/

/-- A text read as one factor of a formula. -/
def IsFactorText (text : String) (e : Formula) : Prop :=
  ∃ ts, scan text.toList = some ts ∧ Reads .factor ts e

theorem isReadAs_of_isFactorText {text : String} {e : Formula} (h : IsFactorText text e) :
    IsReadAs text e := by
  obtain ⟨ts, hts, h⟩ := h
  exact ⟨ts, hts, .conjunction (.factor h)⟩

theorem isFactorText_atom {text : String} (h : IsAtomText text) :
    IsFactorText text (.atom text) := by
  obtain ⟨ts, hts, hstrip, hatom⟩ := h
  have hspelling : spelling (strip ts) = text := by
    rw [spelling, hstrip, flatMap_chars_of_scan hts, String.ofList_toList]
  refine ⟨ts, hts, ?_⟩
  rw [← hspelling]
  exact .atom (hstrip.symm ▸ hatom)

/-- A text before others that a connective joins is read on its own. -/
theorem scan_intercalate_cons_cons {c : Connective} {text text' : String} {texts : List String}
    {ts us : List Token} (hts : scan text.toList = some ts)
    (hus : scan ((" " ++ c.word ++ " ").intercalate (text' :: texts)).toList = some us) :
    scan ((" " ++ c.word ++ " ").intercalate (text :: text' :: texts)).toList =
      some (ts ++ .blank ' ' :: .word c.word.toList :: .blank ' ' :: us) := by
  have hword : scan c.word.toList = some [.word c.word.toList] := by cases c <;> decide
  have hrest := scan_append_cons hts mark?_space (scan_append_cons hword mark?_space hus)
  rw [String.intercalate_cons_cons]
  simpa [String.toList_append] using hrest

/-- So are the parentheses around what is joined. -/
theorem scan_joined {c : Connective} {texts : List String} {ts : List Token}
    (h : scan ((" " ++ c.word ++ " ").intercalate texts).toList = some ts) :
    scan (Compile.joined c texts).toList = some (.opening :: (ts ++ [.closing])) := by
  have hscan := scan_cons mark?_opening (scan_append_singleton h mark?_closing)
  simpa [Compile.joined, String.toList_append] using hscan

/-- The step is along the texts, from the right: what the first is
joined to has been read already. -/
theorem exists_reads_intercalate (c : Connective) {text : String} {e : Formula}
    {texts : List String} {es : List Formula} (h : IsFactorText text e)
    (hs : List.Forall₂ IsFactorText texts es) :
    ∃ ts, scan ((" " ++ c.word ++ " ").intercalate (text :: texts)).toList = some ts ∧
      Reads c.level ts (c.join e es) := by
  induction hs generalizing text e with
  | nil =>
    obtain ⟨ts, hts, h⟩ := h
    rw [String.intercalate_singleton]
    exact ⟨ts, hts, Connective.reads_factor h⟩
  | cons h' _ ih =>
    obtain ⟨us, hus, hright⟩ := ih h'
    obtain ⟨ts, hts, hleft⟩ := h
    -- the blank before the word goes with the first text, the one behind it with the rest
    have hspace : Reads .factor (ts ++ [.blank ' ']) e :=
      hleft.of_strip_eq (strip_append_blank ' ' ts)
    have hreads := Connective.reads_formula hspace (hright.cons_blank ' ')
    rw [List.append_assoc] at hreads
    exact ⟨_, scan_intercalate_cons_cons hts hus, hreads⟩

/-- **Factors joined between parentheses are a factor.** -/
theorem isFactorText_joined (c : Connective) {text : String} {e : Formula} {texts : List String}
    {es : List Formula} (h : IsFactorText text e) (hs : List.Forall₂ IsFactorText texts es) :
    IsFactorText (Compile.joined c (text :: texts)) (c.join e es) := by
  obtain ⟨ts, hts, hreads⟩ := exists_reads_intercalate c h hs
  exact ⟨_, scan_joined hts,
    .group (strip_eq_self rfl rfl ts) (Connective.reads_disjunction hreads)⟩

/-! ## Groups -/

/-- The formula says what the group does: its atoms are the queries of
the conditions, in their order, and its value folds the connective over
theirs. -/
structure Group.IsExpressedBy (g : Group) (e : Formula) : Prop where
  atoms : e.atoms.map .ok = g.conditions.map Condition.query
  eval (truths : List Truth) (h : truths.length = g.conditions.length) :
    e.eval truths = g.connective.fold truths

theorem eval_join_atoms (c : Connective) (text : String) (texts : List String)
    {truths : List Truth} (h : truths.length = texts.length + 1) :
    (c.join (.atom text) (texts.map .atom)).eval truths = c.fold truths := by
  induction texts generalizing text truths with
  | nil =>
    obtain ⟨b, rfl⟩ := List.length_eq_one_iff.mp h
    exact (Connective.truth_unit b).symm
  | cons text' texts ih =>
    cases truths with
    | nil => cases h
    | cons b bs =>
      have hbs : bs.length = texts.length + 1 := Nat.succ.inj h
      have hfirst := Connective.eval_formula (c := c) (e := .atom text)
        (f := c.join (.atom text') (texts.map .atom)) (v := [b]) (w := bs) rfl
      rw [List.map_cons, Connective.join]
      exact hfirst.trans (congrArg (c.truth b) (ih text' hbs))

/-- **The query of a group is a factor that says what the group does.** -/
theorem Group.exists_formula {g : Group} {q : String} (hne : g.conditions ≠ [])
    (h : g.query = .ok q) : ∃ e, IsFactorText q e ∧ g.IsExpressedBy e := by
  rw [Group.query_eq] at h
  obtain ⟨texts, htexts, rfl⟩ := eq_ok_of_map_eq_ok h
  have hqueries := mapM_eq_ok_iff.mp htexts
  have hmap := map_ok_eq_map hqueries
  have hfactors : ∀ text ∈ texts, IsFactorText text (.atom text) := by
    intro text htext
    obtain ⟨c, -, hc⟩ := exists_of_mem_of_forall₂ hqueries htext
    exact isFactorText_atom (Condition.isAtomText_of_query_eq_ok hc)
  cases texts with
  | nil => exact absurd (List.map_eq_nil_iff.mp hmap.symm) hne
  | cons text texts =>
    obtain ⟨hfirst, hrest⟩ := List.forall_mem_cons.mp hfactors
    refine ⟨g.connective.join (.atom text) (texts.map .atom),
      isFactorText_joined _ hfirst ?_, ⟨?_, ?_⟩⟩
    · rw [List.forall₂_map_right_iff, List.forall₂_same]
      exact hrest
    · rw [← hmap, Connective.atoms_join]
      simp [Formula.atoms, List.flatMap_map]
    · intro truths hlength
      refine eval_join_atoms _ _ _ ?_
      rw [hlength, ← List.length_map, ← hmap, List.length_map, List.length_cons]

theorem Group.IsExpressedBy.length_atoms {g : Group} {e : Formula} (h : g.IsExpressedBy e) :
    e.atoms.length = g.conditions.length := by
  rw [← List.length_map, h.atoms, List.length_map]

/-! ## Trees -/

/-- What a tree of some groups comes to, given what the conditions of
each come to. -/
def Tree.value (t : Tree) (groups : List Group) (truths : List (List Truth)) : Truth :=
  t.connective.fold (List.zipWith (fun g => g.connective.fold) groups truths)

theorem exists_formulas {groups : List Group} {texts : List String}
    (h : List.Forall₂ (fun g text => g.query = .ok text) groups texts)
    (hne : ∀ g ∈ groups, g.conditions ≠ []) :
    ∃ es, List.Forall₂ IsFactorText texts es ∧ List.Forall₂ Group.IsExpressedBy groups es := by
  induction h with
  | nil => exact ⟨[], .nil, .nil⟩
  | cons hquery _ ih =>
    obtain ⟨hfirst, hrest⟩ := List.forall_mem_cons.mp hne
    obtain ⟨e, he, hexpressed⟩ := Group.exists_formula hfirst hquery
    obtain ⟨es, hes, hall⟩ := ih hrest
    exact ⟨e :: es, .cons he hes, .cons hexpressed hall⟩

theorem map_atoms_of_isExpressedBy {groups : List Group} {es : List Formula}
    (h : List.Forall₂ Group.IsExpressedBy groups es) :
    (es.flatMap Formula.atoms).map .ok = (groups.flatMap Group.conditions).map Condition.query := by
  induction h with
  | nil => rfl
  | cons hexpressed _ ih =>
    rw [List.flatMap_cons, List.flatMap_cons, List.map_append, List.map_append, ih,
      hexpressed.atoms]

theorem zipWith_eval_of_isExpressedBy {groups : List Group} {es : List Formula}
    {truths : List (List Truth)} (h : List.Forall₂ Group.IsExpressedBy groups es)
    (hlength : truths.map List.length = groups.map fun g => g.conditions.length) :
    List.zipWith Formula.eval es truths =
        List.zipWith (fun g => g.connective.fold) groups truths ∧
      List.Forall₂ (fun v e => v.length = e.atoms.length) truths es := by
  induction h generalizing truths with
  | nil =>
    obtain rfl := List.map_eq_nil_iff.mp hlength
    exact ⟨rfl, .nil⟩
  | cons hexpressed _ ih =>
    cases truths with
    | nil => cases hlength
    | cons v vs =>
      obtain ⟨hv, hvs⟩ := List.cons.inj hlength
      obtain ⟨heval, hall⟩ := ih hvs
      refine ⟨?_, .cons (hv.trans hexpressed.length_atoms.symm) hall⟩
      rw [List.zipWith_cons_cons, List.zipWith_cons_cons, hexpressed.eval v hv, heval]

/-- **The query of a tree means what the tree means.** It is read as a
formula in one way only. The atoms are the queries of the conditions, in
the order of the document; and whatever these come to, each for itself,
the formula comes to the value of the tree. -/
theorem Tree.exists_reading_of_query_eq_ok {t : Tree} {groups : List Group} {q : String}
    (hgroups : t.groups = some groups) (hne : groups ≠ [])
    (hconditions : ∀ g ∈ groups, g.conditions ≠ []) (h : t.query = .ok q) :
    ∃ e : Formula, (∀ e', IsReadAs q e' ↔ e' = e) ∧
      e.atoms.map .ok = (groups.flatMap Group.conditions).map Condition.query ∧
      ∀ truths : List (List Truth),
        truths.map List.length = groups.map (fun g => g.conditions.length) →
        e.eval truths.flatten = t.value groups truths := by
  rw [Tree.query_of_some hgroups] at h
  obtain ⟨texts, htexts, rfl⟩ := eq_ok_of_map_eq_ok h
  obtain ⟨es, hfactors, hexpressed⟩ := exists_formulas (mapM_eq_ok_iff.mp htexts) hconditions
  cases hfactors with
  | nil => exact absurd (List.forall₂_nil_right_iff.mp hexpressed) hne
  | @cons text e texts es hfirst hrest =>
    have hread := isReadAs_of_isFactorText (isFactorText_joined t.connective hfirst hrest)
    refine ⟨t.connective.join e es, fun e' => ⟨fun h' => isReadAs_unique h' hread, ?_⟩, ?_, ?_⟩
    · rintro rfl
      exact hread
    · rw [Connective.atoms_join, ← map_atoms_of_isExpressedBy hexpressed, List.flatMap_cons]
    · intro truths hlength
      obtain ⟨heval, hall⟩ := zipWith_eval_of_isExpressedBy hexpressed hlength
      cases hall with
      | cons hv hvs =>
        rw [List.flatten_cons, Connective.eval_join hv hvs, heval]
        rfl

/-- Two groups whose texts hold quotes, parentheses and connectives. -/
def quotingGroups : List Group :=
  [⟨"group-1", .or,
    [{ id := "criteria-1", source := some 1, attributeName := some "na\"me",
       operator := some "=", values := some [some (.text "x' OR 'y) AND (")],
       relatedTo := some [2, 3] },
     { id := "criteria-2", source := some 1, attributeName := some "kind",
       operator := some "not_in", values := some [some (.text "a"), none, some (.text "b\\")] }]⟩,
   ⟨"group-2", .and,
    [{ id := "criteria-3", source := some 1, attributeName := some "age",
       operator := some "null" }]⟩]

/-- The tree of these groups. -/
def quotingTree : Tree := ⟨.multiple, .and, some quotingGroups⟩

/-- Its query. -/
def quotingQuery : String :=
  "((RELATED_LAYER(2, 3, RELATED_LAYER(3, 1, \"na\"\"me\" = E'x\\' OR \\'y) AND (')) " ++
    "OR \"kind\" NOT IN ('a', E'b\\\\')) AND (\"age\" IS NULL))"

theorem quotingTree_exists_reading :
    quotingTree.groups = some quotingGroups ∧ quotingGroups ≠ [] ∧
      (∀ g ∈ quotingGroups, g.conditions ≠ []) ∧ quotingTree.query = .ok quotingQuery ∧
      ∃ e : Formula, (∀ e', IsReadAs quotingQuery e' ↔ e' = e) ∧
        e.atoms.map .ok = (quotingGroups.flatMap Group.conditions).map Condition.query ∧
        ∀ truths : List (List Truth),
          truths.map List.length = quotingGroups.map (fun g => g.conditions.length) →
          e.eval truths.flatten = quotingTree.value quotingGroups truths := by
  have hne : quotingGroups ≠ [] := List.cons_ne_nil _ _
  have hconditions : ∀ g ∈ quotingGroups, g.conditions ≠ [] := by decide
  have hquery : quotingTree.query = .ok quotingQuery := by decide +kernel
  exact ⟨rfl, hne, hconditions, hquery,
    Tree.exists_reading_of_query_eq_ok rfl hne hconditions hquery⟩

end Criteria

end LayerQuery
