import LayerQuery.Compile.Trace
import LayerQuery.Proofs.Chain
/-!
# What a compilation says to its collaborators

The collaborators of a compilation may be anything that keeps a state and
may fail. This file says which calls they get, in which order, and what
the compilation makes of the answers. Over a condition there are at most
two calls (`Dialogue`), over several conditions those of one after those
of the other up to the first that fails (`InTurn`), and groups only decide
how the texts are put together (`GroupsAssemble`).

The calls are observed in two ways. The answers are those that the
collaborators give when they are called in that order, starting from
their state (`Held`); and collaborators that write down what they are
asked have written down just these calls (`Collaborators.watched`).
`Says` keeps both together through a program, step by step.
-/

namespace LayerQuery

open Criteria Relations

/-- A call of a collaborator, and its answer. -/
structure Exchange where
  call : Call
  answer : Except CompileError String

variable {σ α β : Type}

/-- What a program comes to from a state, and the state that it leaves. -/
def runFrom (s : σ) (x : ExceptT CompileError (StateM σ) α) : Except CompileError α × σ :=
  Id.run (x.run.run s)

namespace Collaborators

/-- The collaborator that is called does its work. -/
def ask (k : Collaborators (StateM σ)) : Call → ExceptT CompileError (StateM σ) String
  | .filter t => k.filter t
  | .scope rootId fragments => k.scope rootId fragments

/-- The answer to a call, and the state of the collaborators after it. -/
def reply (k : Collaborators (StateM σ)) (call : Call) (s : σ) : Except CompileError String × σ :=
  runFrom s (k.ask call)

/-- A call that is written down with its answer. -/
def note (k : Collaborators (StateM σ)) (call : Call) :
    ExceptT CompileError (StateM (σ × List Exchange)) String :=
  ExceptT.mk fun noted =>
    let reply := k.reply call noted.1
    pure (reply.1, (reply.2, noted.2 ++ [⟨call, reply.1⟩]))

/-- The same collaborators, with every call written down. -/
def watched (k : Collaborators (StateM σ)) : Collaborators (StateM (σ × List Exchange)) where
  filter t := k.note (.filter t)
  scope rootId fragments := k.note (.scope rootId fragments)

end Collaborators

/-- Collaborators in the state `s` give the answers of a list of
exchanges, one after the other, and are then in the state `s'`. -/
inductive Held (k : Collaborators (StateM σ)) : σ → List Exchange → σ → Prop
  | nil (s : σ) : Held k s [] s
  | cons {s s' s'' : σ} {x : Exchange} {xs : List Exchange}
    (h : k.reply x.call s = (x.answer, s')) (hrest : Held k s' xs s'') : Held k s (x :: xs) s''

/-! ## The protocol -/

/-- What is said over a condition, and what the condition comes to. -/
inductive Dialogue (c : Condition) : List Exchange → Except CompileError String → Prop
  /-- It is no test, and nobody is called. -/
  | incomplete {e : CompileError} (h : c.test = .error e) : Dialogue c [] (.error e)
  /-- The filter of its test fails. -/
  | refused {t : Test} {e : CompileError} (h : c.test = .ok t) :
    Dialogue c [⟨.filter t, .error e⟩] (.error e)
  /-- There is a filter, and no chain to scope it through. -/
  | plain {t : Test} {text : String} (h : c.test = .ok t)
    (hplain : c.relatedTo = none ∨ c.relatedTo = some []) :
    Dialogue c [⟨.filter t, .ok text⟩] (.ok text)
  /-- There is a filter and a chain, and its scope is the answer. -/
  | chained {t : Test} {text : String} {types : List FeatureTypeId}
    {answer : Except CompileError String} (h : c.test = .ok t)
    (hchain : c.relatedTo = some types) (hne : types ≠ []) :
    Dialogue c
      [⟨.filter t, .ok text⟩,
        ⟨.scope "condition-0" (Fragment.lay text types t.featureType), answer⟩] answer

/-- What is said over conditions in their order, and their texts or the
first failure, after which nothing is said. -/
inductive InTurn : List Condition → List Exchange → Except CompileError (List String) → Prop
  | nil : InTurn [] [] (.ok [])
  | stops {c : Condition} {cs : List Condition} {log : List Exchange} {e : CompileError}
    (h : Dialogue c log (.error e)) : InTurn (c :: cs) log (.error e)
  | goesOn {c : Condition} {cs : List Condition} {log rest : List Exchange} {text : String}
    {result : Except CompileError (List String)} (h : Dialogue c log (.ok text))
    (hrest : InTurn cs rest result) : InTurn (c :: cs) (log ++ rest) (result.map (text :: ·))

/-- Texts in parentheses, with the word of a connective between them. -/
def inParentheses : Connective → List String → String
  | .and, texts => "(" ++ " AND ".intercalate texts ++ ")"
  | .or, texts => "(" ++ " OR ".intercalate texts ++ ")"

theorem Compile.joined_eq (c : Connective) (texts : List String) :
    Compile.joined c texts = inParentheses c texts := by
  have hand : " " ++ Connective.and.word ++ " " = " AND " := by decide
  have hor : " " ++ Connective.or.word ++ " " = " OR " := by decide
  cases c with
  | and => rw [Compile.joined, hand, inParentheses]
  | or => rw [Compile.joined, hor, inParentheses]

/-- The texts of groups of conditions, each in parentheses by its connective. -/
def groupTexts (groups : List Group) (texts : List (List String)) : List String :=
  List.zipWith (fun g => inParentheses g.connective) groups texts

/-- What groups come to, given the texts of all their conditions in one
list. -/
inductive GroupsAssemble (groups : List Group) :
    Except CompileError (List String) → Except CompileError (List String) → Prop
  | error (e : CompileError) : GroupsAssemble groups (.error e) (.error e)
  | ok (texts : List (List String))
    (h : texts.map List.length = groups.map fun g => g.conditions.length) :
    GroupsAssemble groups (.ok texts.flatten) (.ok (groupTexts groups texts))

/-! ## Programs that say something -/

/-- A program and its copy for watched collaborators come to one result
from the state `s`; on the way they exchange `log`, and leave the state
`s'`. -/
structure Says (k : Collaborators (StateM σ)) (x : ExceptT CompileError (StateM σ) α)
    (y : ExceptT CompileError (StateM (σ × List Exchange)) α) (s : σ)
    (result : Except CompileError α) (log : List Exchange) (s' : σ) : Prop where
  run : runFrom s x = (result, s')
  watched (old : List Exchange) : runFrom (s, old) y = (result, (s', old ++ log))
  held : Held k s log s'

section Programs

variable {k : Collaborators (StateM σ)} {s s' s'' : σ} {log rest : List Exchange}

theorem runFrom_bind_ok {x : ExceptT CompileError (StateM σ) α} {a : α}
    (h : runFrom s x = (.ok a, s')) (f : α → ExceptT CompileError (StateM σ) β) :
    runFrom s (x >>= f) = runFrom s' (f a) := by
  change Id.run (ExceptT.bindCont f (runFrom s x).1 (runFrom s x).2) = _
  rw [h]
  rfl

theorem runFrom_bind_error {x : ExceptT CompileError (StateM σ) α} {e : CompileError}
    (h : runFrom s x = (.error e, s')) (f : α → ExceptT CompileError (StateM σ) β) :
    runFrom s (x >>= f) = (.error e, s') := by
  change Id.run (ExceptT.bindCont f (runFrom s x).1 (runFrom s x).2) = _
  rw [h]
  rfl

theorem Held.append {log' : List Exchange} (h : Held k s log s') (h' : Held k s' log' s'') :
    Held k s (log ++ log') s'' := by
  induction h with
  | nil => exact h'
  | cons hreply _ ih => exact .cons hreply (ih h')

namespace Says

variable {x : ExceptT CompileError (StateM σ) α}
variable {y : ExceptT CompileError (StateM (σ × List Exchange)) α}
variable {f : α → ExceptT CompileError (StateM σ) β}
variable {g : α → ExceptT CompileError (StateM (σ × List Exchange)) β}

/-- A result that is there already is said to nobody. -/
theorem silent (k : Collaborators (StateM σ)) (s : σ) (result : Except CompileError α) :
    Says k (ExceptT.mk (pure result)) (ExceptT.mk (pure result)) s result [] s where
  run := rfl
  watched old := by rw [List.append_nil]; rfl
  held := .nil s

/-- A call is one exchange. -/
theorem call (k : Collaborators (StateM σ)) (s : σ) (c : Call) :
    Says k (k.ask c) (k.watched.ask c) s (k.reply c s).1 [⟨c, (k.reply c s).1⟩]
      (k.reply c s).2 where
  run := rfl
  watched old := by cases c <;> rfl
  held := .cons rfl (.nil _)

/-- What is said after a success comes behind what was said before it. -/
theorem bind_ok {a : α} {result : Except CompileError β} (h : Says k x y s (.ok a) log s')
    (h' : Says k (f a) (g a) s' result rest s'') :
    Says k (x >>= f) (y >>= g) s result (log ++ rest) s'' where
  run := by rw [runFrom_bind_ok h.run, h'.run]
  watched old := by rw [runFrom_bind_ok (h.watched old), h'.watched, List.append_assoc]
  held := h.held.append h'.held

/-- After a failure nothing is said. -/
theorem bind_error {e : CompileError} (h : Says k x y s (.error e) log s') :
    Says k (x >>= f) (y >>= g) s (.error e) log s' where
  run := runFrom_bind_error h.run f
  watched old := runFrom_bind_error (h.watched old) g
  held := h.held

/-- A success that is only rewritten. -/
theorem bind_pure {result : Except CompileError α} (h : Says k x y s result log s') (f : α → β) :
    Says k (x >>= fun a => pure (f a)) (y >>= fun a => pure (f a)) s (result.map f) log s' := by
  cases result with
  | error e => exact h.bind_error
  | ok a =>
    have hrest := silent k s' (.ok (f a))
    rw [← List.append_nil log]
    exact h.bind_ok hrest

end Says

end Programs

/-! ## The protocol is kept -/

section Kept

variable (k : Collaborators (StateM σ))

/-- What a condition does with its filter: it scopes it through its
chain, if it has one. -/
def scopeFilter {m : Type → Type} [Monad m] (k : Collaborators m) (c : Condition) (t : Test)
    (filter : String) : ExceptT CompileError m String :=
  match c.relatedTo with
  | some (u :: types) => k.scope (Fragment.idOf 0) (Fragment.lay filter (u :: types) t.featureType)
  | _ => pure filter

theorem condition_eq {m : Type → Type} [Monad m] (k : Collaborators m) (c : Condition) :
    Compile.condition k c =
      ExceptT.mk (pure c.test) >>= fun t => k.filter t >>= scopeFilter k c t := rfl

/-- Once there is a filter, at most one call follows. -/
theorem exists_dialogue_of_filter {c : Condition} {t : Test} (hc : c.test = .ok t) (text : String)
    (s : σ) :
    ∃ result log s', Says k (scopeFilter k c t text) (scopeFilter k.watched c t text) s
        result log s' ∧ Dialogue c (⟨.filter t, .ok text⟩ :: log) result := by
  have hsilent := Says.silent k s (.ok text)
  unfold scopeFilter
  rcases hchain : c.relatedTo with - | ⟨- | ⟨u, types⟩⟩
  · exact ⟨_, _, _, hsilent, .plain hc (.inl hchain)⟩
  · exact ⟨_, _, _, hsilent, .plain hc (.inr hchain)⟩
  · have hscope := Says.call k s
      (.scope (Fragment.idOf 0) (Fragment.lay text (u :: types) t.featureType))
    exact ⟨_, _, _, hscope, .chained hc hchain (List.cons_ne_nil u types)⟩

/-- **Over a condition** the protocol is kept. -/
theorem exists_dialogue (c : Condition) (s : σ) :
    ∃ result log s', Says k (Compile.condition k c) (Compile.condition k.watched c) s
        result log s' ∧ Dialogue c log result := by
  have htest := Says.silent k s c.test
  rw [condition_eq, condition_eq]
  cases hc : c.test with
  | error e =>
    rw [hc] at htest
    exact ⟨_, _, _, htest.bind_error, .incomplete hc⟩
  | ok t =>
    rw [hc] at htest
    have hfilter := Says.call k s (.filter t)
    rcases hreply : k.reply (.filter t) s with ⟨e | text, s'⟩
    · rw [hreply] at hfilter
      exact ⟨_, _, _, htest.bind_ok hfilter.bind_error, .refused hc⟩
    · rw [hreply] at hfilter
      obtain ⟨result, log, s'', hscope, hdialogue⟩ := exists_dialogue_of_filter k hc text s'
      refine ⟨result, [] ++ ([⟨.filter t, .ok text⟩] ++ log), s'', ?_, hdialogue⟩
      exact htest.bind_ok (hfilter.bind_ok hscope)

/-- **Over conditions in their order.** -/
theorem exists_inTurn (cs : List Condition) (s : σ) :
    ∃ result log s', Says k (cs.mapM (Compile.condition k)) (cs.mapM (Compile.condition k.watched))
        s result log s' ∧ InTurn cs log result := by
  induction cs generalizing s with
  | nil => exact ⟨_, _, _, Says.silent k s (.ok []), .nil⟩
  | cons c cs ih =>
    obtain ⟨first, log, s', hfirst, hdialogue⟩ := exists_dialogue k c s
    simp only [List.mapM_cons]
    cases first with
    | error e => exact ⟨_, _, _, hfirst.bind_error, .stops hdialogue⟩
    | ok text =>
      obtain ⟨result, rest, s'', hrest, hturn⟩ := ih s'
      exact ⟨_, _, _, hfirst.bind_ok (hrest.bind_pure (text :: ·)), .goesOn hdialogue hturn⟩

/-! ## Groups and trees -/

variable {k}

theorem InTurn.length_eq {cs : List Condition} {log : List Exchange}
    {result : Except CompileError (List String)} (h : InTurn cs log result) {texts : List String}
    (hresult : result = .ok texts) : texts.length = cs.length := by
  induction h generalizing texts with
  | nil =>
    obtain rfl := Except.ok.inj hresult
    rfl
  | stops => cases hresult
  | goesOn _ _ ih =>
    obtain ⟨rest, hrest, rfl⟩ := eq_ok_of_map_eq_ok hresult
    rw [List.length_cons, List.length_cons, ih hrest]

/-- Whatever is said is said over one of the conditions. -/
theorem InTurn.exists_dialogue_of_mem {cs : List Condition} {log : List Exchange}
    {result : Except CompileError (List String)} (h : InTurn cs log result) {x : Exchange}
    (hx : x ∈ log) : ∃ c ∈ cs, ∃ part answer, Dialogue c part answer ∧ x ∈ part := by
  induction h with
  | nil => exact absurd hx List.not_mem_nil
  | stops h => exact ⟨_, List.mem_cons_self, _, _, h, hx⟩
  | goesOn h _ ih =>
    rcases List.mem_append.mp hx with hx | hx
    · exact ⟨_, List.mem_cons_self, _, _, h, hx⟩
    · obtain ⟨c, hc, hdialogue⟩ := ih hx
      exact ⟨c, List.mem_cons_of_mem _ hc, hdialogue⟩

/-- After a failure the conditions that are left do not matter. -/
theorem InTurn.append_of_error {cs : List Condition} {log : List Exchange}
    {result : Except CompileError (List String)} (h : InTurn cs log result) {e : CompileError}
    (hresult : result = .error e) (more : List Condition) : InTurn (cs ++ more) log (.error e) := by
  induction h with
  | nil => cases hresult
  | stops h =>
    obtain rfl := Except.error.inj hresult
    exact .stops h
  | @goesOn _ _ _ _ text rest hdialogue _ ih =>
    cases rest with
    | ok texts => cases hresult
    | error e' =>
      obtain rfl := Except.error.inj hresult
      exact .goesOn hdialogue (ih rfl)

/-- After a success they are next. -/
theorem InTurn.append_of_ok {cs more : List Condition} {log rest : List Exchange}
    {result result' : Except CompileError (List String)} (h : InTurn cs log result)
    {texts : List String} (hresult : result = .ok texts) (h' : InTurn more rest result') :
    InTurn (cs ++ more) (log ++ rest) (result'.map (texts ++ ·)) := by
  induction h generalizing texts with
  | nil =>
    obtain rfl := Except.ok.inj hresult
    cases result' <;> exact h'
  | stops => cases hresult
  | @goesOn _ _ log after text _ hdialogue _ ih =>
    obtain ⟨front, hfront, rfl⟩ := eq_ok_of_map_eq_ok hresult
    have hall := InTurn.goesOn hdialogue (ih hfront)
    rw [List.append_assoc, List.cons_append]
    cases result' <;> exact hall

theorem Compile.group_eq {m : Type → Type} [Monad m] (k : Collaborators m) (g : Group) :
    Compile.group k g =
      g.conditions.mapM (Compile.condition k) >>= fun texts =>
        pure (inParentheses g.connective texts) := by
  simp only [Compile.group, Compile.joined_eq]

theorem Compile.tree_eq {m : Type → Type} [Monad m] (k : Collaborators m) {t : Tree}
    {groups : List Group} (hgroups : t.groups = some groups) :
    Compile.tree k t =
      groups.mapM (Compile.group k) >>= fun texts => pure (inParentheses t.connective texts) := by
  simp only [Compile.tree, hgroups, Compile.joined_eq]

/-- **Over the conditions of all groups, in the order of the document.** -/
theorem exists_inTurn_groups (k : Collaborators (StateM σ)) (groups : List Group) (s : σ) :
    ∃ result log s' texts, Says k (groups.mapM (Compile.group k))
        (groups.mapM (Compile.group k.watched)) s result log s' ∧
      InTurn (groups.flatMap Group.conditions) log texts ∧ GroupsAssemble groups texts result := by
  induction groups generalizing s with
  | nil => exact ⟨_, _, _, _, Says.silent k s (.ok []), .nil, .ok [] rfl⟩
  | cons g groups ih =>
    obtain ⟨first, log, s', hfirst, hturn⟩ := exists_inTurn k g.conditions s
    have hgroup := hfirst.bind_pure (inParentheses g.connective)
    simp only [List.mapM_cons, List.flatMap_cons]
    rw [Compile.group_eq, Compile.group_eq]
    cases first with
    | error e =>
      exact ⟨_, _, _, _, hgroup.bind_error, hturn.append_of_error rfl _, .error e⟩
    | ok texts =>
      obtain ⟨result, rest, s'', others, hrest, hturns, hassemble⟩ := ih s'
      refine ⟨_, _, _, _, hgroup.bind_ok (hrest.bind_pure (inParentheses g.connective texts :: ·)),
        hturn.append_of_ok rfl hturns, ?_⟩
      cases hassemble with
      | error e => exact .error e
      | ok others hlength =>
        refine .ok (texts :: others) ?_
        rw [List.map_cons, List.map_cons, hlength, hturn.length_eq rfl]

/-- **Over a tree.** -/
theorem exists_inTurn_tree (k : Collaborators (StateM σ)) {t : Tree} {groups : List Group}
    (hgroups : t.groups = some groups) (s : σ) :
    ∃ assembled log s' texts, Says k (Compile.tree k t) (Compile.tree k.watched t) s
        (assembled.map (inParentheses t.connective)) log s' ∧
      InTurn (groups.flatMap Group.conditions) log texts ∧
      GroupsAssemble groups texts assembled := by
  obtain ⟨assembled, log, s', texts, hsaid, hturn, hassemble⟩ := exists_inTurn_groups k groups s
  refine ⟨assembled, log, s', texts, ?_, hturn, hassemble⟩
  rw [Compile.tree_eq k hgroups, Compile.tree_eq k.watched hgroups]
  exact hsaid.bind_pure (inParentheses t.connective)

end Kept

/-! ## What is scoped -/

/-- The root id and the ids of a laid chain do not depend on what was
said before: every chain is counted from zero. -/
def Exchange.IsCountedFromZero (x : Exchange) : Prop :=
  ∀ rootId fragments, x.call = .scope rootId fragments →
    rootId = "condition-0" ∧
      fragments.map Fragment.id =
        (List.range fragments.length).map fun n => "condition-" ++ Nat.repr n

theorem Dialogue.isCountedFromZero {c : Condition} {log : List Exchange}
    {result : Except CompileError String} (h : Dialogue c log result) :
    ∀ x ∈ log, x.IsCountedFromZero := by
  intro x hx rootId fragments hcall
  cases h with
  | incomplete => cases hx
  | refused | plain =>
    obtain rfl := List.mem_singleton.mp hx
    cases hcall
  | @chained t text types _ =>
    rcases List.mem_cons.mp hx with rfl | hx
    · cases hcall
    · obtain rfl := List.mem_singleton.mp hx
      obtain ⟨rfl, rfl⟩ := Call.scope.inj hcall
      refine ⟨rfl, ?_⟩
      rw [Fragment.length_lay]
      exact Fragment.map_id_lay text t.featureType types

theorem InTurn.isCountedFromZero {cs : List Condition} {log : List Exchange}
    {result : Except CompileError (List String)} (h : InTurn cs log result) :
    ∀ x ∈ log, x.IsCountedFromZero := by
  intro x hx
  obtain ⟨c, -, part, answer, hdialogue, hpart⟩ := h.exists_dialogue_of_mem hx
  exact hdialogue.isCountedFromZero x hpart

/-! ## Recorded calls -/

/-- Collaborators that record their calls have recorded those of the
exchanges. -/
theorem Held.recorded_eq {k : Collaborators Id} {calls calls' : List Call} {log : List Exchange}
    (h : Held k.recorded calls log calls') : calls' = calls ++ log.map Exchange.call := by
  induction h with
  | nil => rw [List.map_nil, List.append_nil]
  | @cons calls after calls' x xs hreply _ ih =>
    have hafter : after = calls ++ [x.call] := by
      have hstate := congrArg Prod.snd hreply
      cases hcall : x.call with
      | filter t =>
        rw [hcall] at hstate
        exact hstate.symm
      | scope rootId fragments =>
        rw [hcall] at hstate
        exact hstate.symm
    rw [ih, hafter, List.map_cons, List.append_assoc, List.singleton_append]

/-- **The trace of a compilation is the list of calls of the protocol.** -/
theorem traced_tree (k : Collaborators Id) {t : Tree} {groups : List Group}
    (hgroups : t.groups = some groups) :
    ∃ log texts assembled,
      Compile.traced (Compile.tree k.recorded t) =
        (assembled.map (inParentheses t.connective), log.map Exchange.call) ∧
      InTurn (groups.flatMap Group.conditions) log texts ∧
      GroupsAssemble groups texts assembled := by
  obtain ⟨assembled, log, calls, texts, hsaid, hturn, hassemble⟩ :=
    exists_inTurn_tree k.recorded hgroups []
  refine ⟨log, texts, assembled, ?_, hturn, hassemble⟩
  rw [← List.nil_append (log.map _), ← hsaid.held.recorded_eq]
  exact hsaid.run

/-! ## Compilations -/

/-- **A compilation keeps to the protocol**, whatever its collaborators
are and whatever state they start from. The conditions of all groups have
their turns in the order of the document: the test of each is given to be
filtered, once, and after that, if there is a chain, its fragments to be
scoped, once, their ids counted from zero. What was watched is what was
said, and the answers are those of the collaborators in that order. The
first failure is the result, and nothing is said after it; otherwise the
texts are joined group by group and then over the groups. -/
theorem tree_keeps_protocol (k : Collaborators (StateM σ)) {t : Tree} {groups : List Group}
    (hgroups : t.groups = some groups) (s : σ) :
    ∃ result log s' texts assembled,
      runFrom s (Compile.tree k t) = (result, s') ∧
      runFrom (s, []) (Compile.tree k.watched t) = (result, (s', log)) ∧
      Held k s log s' ∧ InTurn (groups.flatMap Group.conditions) log texts ∧
      GroupsAssemble groups texts assembled ∧
      result = assembled.map (inParentheses t.connective) ∧
      ∀ x ∈ log, x.IsCountedFromZero := by
  obtain ⟨assembled, log, s', texts, hsaid, hturn, hassemble⟩ := exists_inTurn_tree k hgroups s
  refine ⟨_, log, s', texts, assembled, hsaid.run, ?_, hsaid.held, hturn, hassemble, rfl,
    hturn.isCountedFromZero⟩
  rw [hsaid.watched [], List.nil_append]

/-- Collaborators that count their calls and answer so many of them: a test by its id, and a chain
by the id that it starts with. -/
def tiring (calls : Nat) : Collaborators (StateM Nat) where
  filter t := ExceptT.mk fun n =>
    (if n < calls then .ok t.id else .error (.unsupported t.operator), n + 1)
  scope rootId _ := ExceptT.mk fun n =>
    (if n < calls then .ok rootId else .error (.brokenChain rootId .noRoot), n + 1)

/-- Two groups, of a condition with a chain and two plain ones. -/
def tiringGroups : List Group :=
  [⟨"group-1", .or,
    [{ id := "criteria-1", source := some 9, attributeName := some "x", operator := some "=",
       relatedTo := some [5, 7] }]⟩,
   ⟨"group-2", .and,
    [{ id := "criteria-2", source := some 9, attributeName := some "y", operator := some "<" },
     { id := "criteria-3", source := some 9, attributeName := some "z", operator := some ">" }]⟩]

/-- If the third call fails, the last condition is never tested. If all
four calls are answered, the answers are put together. -/
theorem tiring_keeps_protocol :
    (Tree.mk .simple .or (some tiringGroups)).groups = some tiringGroups ∧
    (runFrom 0 (Compile.tree (tiring 2) ⟨.simple, .or, some tiringGroups⟩) =
        (.error (.unsupported "<"), 3) ∧
      ∃ log texts, Held (tiring 2) 0 log 3 ∧
        InTurn (tiringGroups.flatMap Group.conditions) log texts ∧
        GroupsAssemble tiringGroups texts (.error (.unsupported "<"))) ∧
    runFrom 0 (Compile.tree (tiring 4) ⟨.simple, .or, some tiringGroups⟩) =
        (.ok "((condition-0) OR (9_y_< AND 9_z_>))", 4) ∧
      ∃ log texts assembled, Held (tiring 4) 0 log 4 ∧
        InTurn (tiringGroups.flatMap Group.conditions) log texts ∧
        GroupsAssemble tiringGroups texts (.ok assembled) ∧
        inParentheses .or assembled = "((condition-0) OR (9_y_< AND 9_z_>))" ∧
        ∀ x ∈ log, x.IsCountedFromZero := by
  have hfails : runFrom 0 (Compile.tree (tiring 2) ⟨.simple, .or, some tiringGroups⟩) =
      (.error (.unsupported "<"), 3) := by decide +kernel
  have hsucceeds : runFrom 0 (Compile.tree (tiring 4) ⟨.simple, .or, some tiringGroups⟩) =
      (.ok "((condition-0) OR (9_y_< AND 9_z_>))", 4) := by decide +kernel
  refine ⟨rfl, ⟨hfails, ?_⟩, hsucceeds, ?_⟩
  · obtain ⟨result, log, s', texts, assembled, hresult, -, hheld, hturn, hassemble, heq, -⟩ :=
      tree_keeps_protocol (tiring 2) (t := ⟨.simple, .or, some tiringGroups⟩) rfl 0
    obtain ⟨rfl, rfl⟩ := Prod.mk.inj (hfails.symm.trans hresult)
    refine ⟨log, texts, hheld, hturn, ?_⟩
    cases assembled with
    | ok joined => cases heq
    | error e =>
      obtain rfl := Except.error.inj heq
      exact hassemble
  · obtain ⟨result, log, s', texts, assembled, hresult, -, hheld, hturn, hassemble, heq, hzero⟩ :=
      tree_keeps_protocol (tiring 4) (t := ⟨.simple, .or, some tiringGroups⟩) rfl 0
    obtain ⟨rfl, rfl⟩ := Prod.mk.inj (hsucceeds.symm.trans hresult)
    obtain ⟨assembled, rfl, hjoined⟩ := eq_ok_of_map_eq_ok heq.symm
    exact ⟨log, texts, assembled, hheld, hturn, hassemble, hjoined.symm, hzero⟩

end LayerQuery
