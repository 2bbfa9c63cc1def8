import LayerQuery.Console
import LayerQuery.Proofs.Wording
import Mathlib.Data.List.Forall2
import Mathlib.Data.List.TakeWhile
/-!
# Sessions, line by line

A session keeps nothing from one line to the next. So what it puts out
after the greeting is what its lines put out when each is the only one,
one after the other up to the first request to stop (`run_eq_join`), and
what a single line puts out depends on what is left of it without
backspaces and outer blanks (`Says`). Where a line fails, its failure is
all that it says; the lines after it are answered as they would be
without it. What is printed is spelled out here to the letter, so that
none of it hangs on the printers of the program.

The lines are those that line breaks end; the last one need not be ended
(`IsInputOf`). After a line break that ends the input the program sees
one more line, a blank one, and says nothing. The lines that are heard
are taken to be delivered, as every line without backspaces is
(`isDelivered_of_not_mem`).
-/

namespace LayerQuery

namespace Console

open Criteria Relations Json

/-! ## Lines of an input -/

/-- The lines are those of the input. -/
inductive IsInputOf : List String → String → Prop
  | nil : IsInputOf [] ""
  | last {line : String} (h : '\n' ∉ line.toList) : IsInputOf [line] line
  | cons {line rest : String} {lines : List String} (h : '\n' ∉ line.toList)
      (hrest : IsInputOf lines rest) : IsInputOf (line :: lines) (line ++ "\n" ++ rest)

theorem splitLines_of_not_mem {cs : List Char} (h : '\n' ∉ cs) : splitLines cs = [cs] := by
  induction cs with
  | nil => rfl
  | cons c cs ih =>
    rw [List.mem_cons, not_or] at h
    rw [splitLines, if_neg (Ne.symm h.1), ih h.2]

theorem splitLines_append_cons {cs : List Char} (h : '\n' ∉ cs) (rest : List Char) :
    splitLines (cs ++ '\n' :: rest) = cs :: splitLines rest := by
  induction cs with
  | nil => exact if_pos rfl
  | cons c cs ih =>
    rw [List.mem_cons, not_or] at h
    rw [List.cons_append, splitLines, if_neg (Ne.symm h.1), ih h.2]

/-- Every input has lines, so that what is said of lines is said of every
input. -/
theorem exists_isInputOf (cs : List Char) : ∃ lines, IsInputOf lines (String.ofList cs) := by
  by_cases h : '\n' ∈ cs
  · obtain ⟨line, rest, rfl, hline⟩ := List.eq_append_cons_of_mem h
    obtain ⟨lines, hlines⟩ := exists_isInputOf rest
    refine ⟨String.ofList line :: lines, ?_⟩
    have hinput : String.ofList (line ++ '\n' :: rest) =
        String.ofList line ++ "\n" ++ String.ofList rest := by
      apply String.toList_inj.mp
      simp
    rw [hinput]
    exact .cons (by rwa [String.toList_ofList]) hlines
  · exact ⟨[String.ofList cs], .last (by rwa [String.toList_ofList])⟩
termination_by cs.length

/-- The program sees the lines of an input, and after the last line break
one more at most. -/
theorem IsInputOf.splitLines_eq {lines : List String} {input : String} (h : IsInputOf lines input) :
    ∃ more, (splitLines input.toList).map String.ofList = lines ++ more ∧
      (more = [] ∨ more = [""]) := by
  induction h with
  | nil => exact ⟨[""], rfl, .inr rfl⟩
  | last h =>
    refine ⟨[], ?_, .inl rfl⟩
    rw [splitLines_of_not_mem h, List.map_singleton, String.ofList_toList, List.append_nil]
  | @cons line rest lines h hrest ih =>
    obtain ⟨more, hsplit, hmore⟩ := ih
    refine ⟨more, ?_, hmore⟩
    have hfirst : splitLines (line ++ "\n" ++ rest).toList =
        line.toList :: splitLines rest.toList := by
      rw [String.toList_append, String.toList_append, List.append_assoc]
      exact splitLines_append_cons h rest.toList
    rw [hfirst, List.map_cons, String.ofList_toList, hsplit, List.cons_append]

/-! ## What a line asks for -/

/-- The line can be delivered. -/
def IsDelivered (line : String) : Prop :=
  (Text.typed? line).isSome = true

instance (line : String) : Decidable (IsDelivered line) :=
  inferInstanceAs (Decidable (_ = true))

theorem isDelivered_of_not_mem {line : String} (h : Text.backspace ∉ line.toList) :
    IsDelivered line := by
  rw [IsDelivered, Text.typed?_of_not_mem h, Option.isSome_some]

/-- What is left of a line that can be delivered: backspaces have taken
effect, and there are no blanks around it. -/
def remains? (line : String) : Option String :=
  (Text.typed? line).map Text.trim

/-- The line is a request to stop. -/
def AsksToStop (line : String) : Prop :=
  remains? line = some ":quit" ∨ remains? line = some ":q"

instance (line : String) : Decidable (AsksToStop line) :=
  inferInstanceAs (Decidable (_ ∨ _))

/-- The line asks for the sources of the layer file at a path. -/
def AsksForSources (line path : String) : Prop :=
  ∃ rest, remains? line = some (":sources" ++ rest) ∧ Text.trim rest = path

/-- The line is taken for the text of a tree: there is something on it,
and it is no request. -/
structure IsTreeText (line text : String) : Prop where
  remains_eq : remains? line = some text
  not_blank : text ≠ ""
  not_stop : ¬ AsksToStop line
  not_sources : ∀ path, ¬ AsksForSources line path

theorem IsDelivered.exists_remains {line : String} (h : IsDelivered line) :
    ∃ text, remains? line = some text := by
  obtain ⟨typed, htyped⟩ := Option.isSome_iff_exists.mp h
  exact ⟨Text.trim typed, by rw [remains?, htyped, Option.map_some]⟩

theorem ofLine?_eq {line text : String} (h : remains? line = some text) :
    Request.ofLine? line = some (if text = "" then .nothing
      else if text = ":quit" ∨ text = ":q" then .quit
      else if sourcesWord.isPrefixOf text.toList then
        .sources (Text.trim (String.ofList (text.toList.drop sourcesWord.length)))
      else .compile text) := by
  obtain ⟨typed, htyped, rfl⟩ := Option.map_eq_some_iff.mp h
  rw [Request.ofLine?, htyped]
  rfl

theorem asksToStop_iff {line text : String} (h : remains? line = some text) :
    AsksToStop line ↔ text = ":quit" ∨ text = ":q" := by
  rw [AsksToStop, h, Option.some.injEq, Option.some.injEq]

theorem ofLine?_of_asksToStop {line : String} (h : AsksToStop line) :
    Request.ofLine? line = some .quit := by
  rcases h with h | h
  · rw [ofLine?_eq h]
    rfl
  · rw [ofLine?_eq h]
    rfl

theorem toList_sources_append (rest : String) :
    (":sources" ++ rest).toList = sourcesWord ++ rest.toList :=
  String.toList_append

theorem isPrefixOf_sourcesWord_iff {text : String} :
    sourcesWord.isPrefixOf text.toList = true ↔ ∃ rest, text = ":sources" ++ rest := by
  rw [List.isPrefixOf_iff_prefix]
  constructor
  · rintro ⟨rest, hrest⟩
    refine ⟨String.ofList rest, String.toList_inj.mp ?_⟩
    rw [toList_sources_append, String.toList_ofList, hrest]
  · rintro ⟨rest, rfl⟩
    rw [toList_sources_append]
    exact List.prefix_append _ _

/-- A line that is delivered and no request to stop asks for one of three
things. -/
theorem ofLine?_cases {line : String} (hdelivered : IsDelivered line) (h : ¬ AsksToStop line) :
    remains? line = some "" ∧ Request.ofLine? line = some .nothing ∨
      (∃ path, AsksForSources line path ∧ Request.ofLine? line = some (.sources path)) ∨
      ∃ text, IsTreeText line text ∧ Request.ofLine? line = some (.compile text) := by
  obtain ⟨text, htext⟩ := hdelivered.exists_remains
  have hline := ofLine?_eq htext
  have hstop : ¬ (text = ":quit" ∨ text = ":q") := fun hstop => h ((asksToStop_iff htext).mpr hstop)
  by_cases hblank : text = ""
  · rw [if_pos hblank] at hline
    exact .inl ⟨hblank ▸ htext, hline⟩
  rw [if_neg hblank, if_neg hstop] at hline
  by_cases hword : sourcesWord.isPrefixOf text.toList = true
  · obtain ⟨rest, rfl⟩ := isPrefixOf_sourcesWord_iff.mp hword
    have hdrop : (":sources" ++ rest).toList.drop sourcesWord.length = rest.toList := by
      rw [toList_sources_append, List.drop_left]
    rw [if_pos hword, hdrop, String.ofList_toList] at hline
    exact .inr (.inl ⟨Text.trim rest, ⟨rest, htext, rfl⟩, hline⟩)
  · rw [if_neg hword] at hline
    refine .inr (.inr ⟨text, ⟨htext, hblank, h, ?_⟩, hline⟩)
    rintro path ⟨rest, hrest, -⟩
    exact hword (isPrefixOf_sourcesWord_iff.mpr ⟨rest, Option.some.inj (htext.symm.trans hrest)⟩)

/-! ## What a line says -/

/-- The two lines that open a session. -/
def opening : String :=
  "--- Criteria Compiler: 条件树到过滤查询 ---\n" ++
    "输入一行条件树JSON进行编译, `:sources <文件>` 列出数据源, `:quit` 退出\n"

theorem greeting_eq : greeting = opening := by
  decide +kernel

/-- The line for a source of a layer. Behind its label and its feature
type stands the chain that leads to it, unless the chain is unset or
empty. -/
inductive IsEntryLine (e : Entry) : String → Prop
  | near (h : e.relatedTo = none ∨ e.relatedTo = some []) :
      IsEntryLine e (e.label ++ " [" ++ toString e.featureType.toInt ++ "]\n")
  | related {chain : List FeatureTypeId} (h : e.relatedTo = some chain) (hne : chain ≠ []) :
      IsEntryLine e (e.label ++ " [" ++ toString e.featureType.toInt ++ "] relatedTo=[" ++
        ", ".intercalate (chain.map fun t => toString t.toInt) ++ "]\n")

/-- What is said of the sources of a layer: one line for each, or one
that there are none. -/
inductive IsListing : List Entry → String → Prop
  | empty : IsListing [] "⚠️ 元数据尚未加载, 没有可选数据源\n"
  | lines {entries : List Entry} {texts : List String} (hne : entries ≠ [])
      (h : List.Forall₂ IsEntryLine entries texts) : IsListing entries (String.join texts)

section Says

variable [Rounding] (describe : Fault → String) (labels : Labels) (files : Files)

/-- Why a line fails, in full: it is not the text of a tree, or of a tree
that can be compiled, or it asks for the sources of something that is no
layer file. -/
inductive Fails (line : String) : String → Prop
  | unreadableTree {text : String} {fault : Fault} (h : IsTreeText line text)
      (htree : Tree.codec.ofText text = .error fault) :
      Fails line ("无法解析条件树JSON: " ++ describe fault)
  | invalidTree {text : String} {tree : Tree} (h : IsTreeText line text)
      (htree : Tree.codec.ofText text = .ok tree) (hinvalid : tree.isValid = false) :
      Fails line "条件树无效: 存在空的条件组或缺少必填字段的条件"
  | unaskable {text : String} {tree : Tree} {e : CompileError} (h : IsTreeText line text)
      (htree : Tree.codec.ofText text = .ok tree) (hvalid : tree.isValid = true)
      (hquery : tree.query = .error e) : Fails line e.sentence
  | noFile {path : String} {fault : FileFault} (h : AsksForSources line path)
      (hfile : files path = .error fault) :
      Fails line ("无法读取图层文件 " ++ path ++ ": " ++ fault.sentence)
  | unreadableLayer {path text : String} {fault : Fault} (h : AsksForSources line path)
      (hfile : files path = .ok text) (hlayer : LayerFile.codec.ofText text = .error fault) :
      Fails line ("无法解析图层文件 " ++ path ++ ": " ++ describe fault)

/-- What a line that is no request to stop says. -/
inductive Says (line : String) : String → Prop
  | nothing (h : remains? line = some "") : Says line ""
  | query {text query : String} {tree : Tree} (h : IsTreeText line text)
      (htree : Tree.codec.ofText text = .ok tree) (hvalid : tree.isValid = true)
      (hquery : tree.query = .ok query) : Says line (query ++ "\n")
  | sources {path text listing : String} {file : LayerFile} (h : AsksForSources line path)
      (hfile : files path = .ok text) (hlayer : LayerFile.codec.ofText text = .ok file)
      (hlisting : IsListing (Relations.sources labels.label? file.layer file.metadata) listing) :
      Says line listing
  | failure {words : String} (h : Fails describe files line words) :
      Says line ("✗ " ++ words ++ "\n")

end Says

theorem integerText_eq_toString (n : Int) : integerText n = toString n := by
  cases n with
  | ofNat n => exact String.empty_append
  | negSucc n =>
    rw [integerText, if_pos (Int.negSucc_lt_zero n), Int.natAbs_negSucc]
    rfl

/-- The line that is printed for a source is the one above. -/
theorem isEntryLine_entryLine (e : Entry) : IsEntryLine e (entryLine e ++ "\n") := by
  rcases hchain : e.relatedTo with - | ⟨- | ⟨t, ts⟩⟩
  · have h := IsEntryLine.near (.inl hchain)
    simpa [entryLine, hchain, integerText_eq_toString, String.append_assoc] using h
  · have h := IsEntryLine.near (.inr hchain)
    simpa [entryLine, hchain, integerText_eq_toString, String.append_assoc] using h
  · have h := IsEntryLine.related hchain (List.cons_ne_nil t ts)
    have hjoint : "] relatedTo=[" = "]" ++ (" relatedTo=" ++ "[") := by decide
    have hend : "]\n" = "]" ++ "\n" := by decide
    simpa [entryLine, chainText, hchain, integerText_eq_toString, hjoint, hend, String.append_assoc,
      -String.reduceAppend] using h

theorem isListing_sourceLines (labels : Labels) (file : LayerFile) :
    IsListing (Relations.sources labels.label? file.layer file.metadata)
      (unlines (sourceLines labels file)) := by
  rw [sourceLines]
  split
  · next hnone =>
    rw [hnone, unlines_singleton]
    exact .empty
  · next entries hsome =>
    rw [unlines, List.map_map]
    refine .lines hsome ?_
    rw [List.forall₂_map_right_iff, List.forall₂_same]
    exact fun e _ => isEntryLine_entryLine e

/-- A failure with a cause, marked as one. -/
theorem unlines_line_cause (context cause : String) :
    unlines ["✗ " ++ Failure.line ⟨context, some cause⟩] =
      "✗ " ++ (context ++ ": " ++ cause) ++ "\n" :=
  unlines_singleton _

theorem unlines_line (context : String) :
    unlines ["✗ " ++ Failure.line ⟨context, none⟩] = "✗ " ++ context ++ "\n" :=
  unlines_singleton _

section Answers

variable [Rounding] {describe : Fault → String} {labels : Labels} {files : Files}

theorem says_answer_compile {line text : String} (h : IsTreeText line text) :
    Says describe labels files line (answer describe labels files (.compile text)) := by
  have hcontext : "无法解析条件树JSON" ++ ": " = "无法解析条件树JSON: " := by decide
  simp only [answer, compileText]
  cases htree : Tree.codec.ofText text with
  | error fault =>
    simp only [unlines_line_cause, hcontext]
    exact .failure (.unreadableTree h htree)
  | ok tree =>
    cases hvalid : tree.isValid with
    | false =>
      simp only [hvalid, Bool.false_eq_true, if_false, unlines_line]
      exact .failure (.invalidTree h htree hvalid)
    | true =>
      simp only [hvalid, if_true]
      cases hquery : tree.query with
      | error e =>
        simp only [Except.mapError, unlines_line, e.message_eq]
        exact .failure (.unaskable h htree hvalid hquery)
      | ok query =>
        simp only [Except.mapError, unlines_singleton]
        exact .query h htree hvalid hquery

theorem says_answer_sources {line path : String} (h : AsksForSources line path) :
    Says describe labels files line (answer describe labels files (.sources path)) := by
  simp only [answer, listSources]
  cases hfile : files path with
  | error fault =>
    simp only [unlines_line_cause, fault.message_eq]
    exact .failure (.noFile h hfile)
  | ok text =>
    cases hlayer : LayerFile.codec.ofText text with
    | error fault =>
      simp only [hlayer, unlines_line_cause]
      exact .failure (.unreadableLayer h hfile hlayer)
    | ok file =>
      simp only [hlayer]
      exact .sources h hfile hlayer (isListing_sourceLines labels file)

/-- **One line.** What a line says that is delivered and no request to
stop comes before what the lines after it are answered with. -/
theorem exists_says {line : String} (hdelivered : IsDelivered line) (h : ¬ AsksToStop line) :
    ∃ text, Says describe labels files line text ∧
      ∀ lines, answers describe labels files (line :: lines) =
        (answers describe labels files lines).after text := by
  obtain ⟨hblank, hline⟩ | ⟨path, hpath, hline⟩ | ⟨text, htext, hline⟩ :=
    ofLine?_cases hdelivered h
  · exact ⟨_, .nothing hblank, fun lines => by rw [answers, hline]; rfl⟩
  · exact ⟨_, says_answer_sources hpath, fun lines => by rw [answers, hline]⟩
  · exact ⟨_, says_answer_compile htext, fun lines => by rw [answers, hline]⟩

/-! ## What a session says -/

/-- The lines before the first request to stop. -/
def heard (lines : List String) : List String :=
  lines.takeWhile (¬ AsksToStop ·)

/-- What the program puts out after the opening if a line is all of the
input. -/
def PrintsAlone (describe : Fault → String) (files : Files) (labelPath : Option String)
    (line text : String) : Prop :=
  ∀ input, IsInputOf [line] input →
    run describe files labelPath [] input = ⟨0, opening ++ text, ""⟩

/-- A blank line at the end adds nothing. -/
theorem answers_append_blank (lines : List String) :
    answers describe labels files (lines ++ [""]) = answers describe labels files lines := by
  induction lines with
  | nil => rfl
  | cons line lines ih => rw [List.cons_append, answers, answers, ih]

theorem run_eq_answers {labelPath : Option String} {lines : List String} {input : String}
    (h : IsInputOf lines input) : run describe files labelPath [] input =
      (answers describe (Labels.loadOrEmpty files labelPath) files lines).after opening := by
  obtain ⟨more, hsplit, rfl | rfl⟩ := h.splitLines_eq
  · rw [List.append_nil] at hsplit
    rw [run, session, hsplit, greeting_eq]
  · -- the line after the last break is blank
    rw [run, session, hsplit, answers_append_blank, greeting_eq]

/-- **All lines.** The answers are what is said by the lines that are
heard, each of which says it alone too. -/
theorem exists_answers_eq_join (labelPath : Option String) (lines : List String)
    (hdelivered : ∀ line ∈ heard lines, IsDelivered line) :
    ∃ texts, answers describe (Labels.loadOrEmpty files labelPath) files lines =
        ⟨0, String.join texts, ""⟩ ∧
      List.Forall₂ (fun line text => PrintsAlone describe files labelPath line text ∧
        Says describe (Labels.loadOrEmpty files labelPath) files line text) (heard lines) texts := by
  induction lines with
  | nil => exact ⟨[], rfl, .nil⟩
  | cons line lines ih =>
    by_cases h : AsksToStop line
    · rw [heard, List.takeWhile_cons_of_neg (by simpa using h)]
      exact ⟨[], by rw [answers, ofLine?_of_asksToStop h]; rfl, .nil⟩
    · have hheard : heard (line :: lines) = line :: heard lines :=
        List.takeWhile_cons_of_pos (by simpa using h)
      rw [hheard] at hdelivered ⊢
      obtain ⟨hline, hlines⟩ := List.forall_mem_cons.mp hdelivered
      obtain ⟨text, hsays, hstep⟩ := exists_says hline h
      obtain ⟨texts, hanswers, hall⟩ := ih hlines
      refine ⟨text :: texts, ?_, .cons ⟨fun input hinput => ?_, hsays⟩ hall⟩
      · rw [hstep, hanswers, Outcome.after, String.join_cons]
      · rw [run_eq_answers hinput, hstep, answers, Outcome.after, Outcome.after,
          String.append_empty]

/-- **A session says what its lines say alone.** It puts out the opening
and then, in their order, what each line before the first request to stop
puts out when it is the only one, and ends with success. Alone a line
puts out nothing if it is blank, its one failure if it fails, and else
the query or the sources that it asks for. -/
theorem run_eq_join (describe : Fault → String) (files : Files) (labelPath : Option String)
    {lines : List String} {input : String} (h : IsInputOf lines input)
    (hdelivered : ∀ line ∈ heard lines, IsDelivered line) :
    ∃ texts,
      run describe files labelPath [] input = ⟨0, opening ++ String.join texts, ""⟩ ∧
      List.Forall₂ (fun line text => PrintsAlone describe files labelPath line text ∧
        Says describe (Labels.loadOrEmpty files labelPath) files line text)
        (heard lines) texts := by
  obtain ⟨texts, hanswers, hall⟩ := exists_answers_eq_join labelPath lines hdelivered
  exact ⟨texts, by rw [run_eq_answers h, hanswers, Outcome.after], hall⟩

end Answers

/-- A layer whose metadata has a relation with two relations of its own,
the records in it written as lists. -/
def parkFile : String :=
  "\x7b\"source\":[7,\"park\"],\"metadata\":\x7b\"relations\":" ++
    "[[-8,\"tree\",[[9,\"leaf\"],[10,\"root\"]]]]\x7d\x7d"

/-- The layer is in a file, and nothing else is. -/
def parkFiles : Files := fun path =>
  if path = "park.json" then .ok parkFile else .error .notFound

/-- A tree, a blank line, a text that is no tree, a layer file that is not
there, with a slip in its name that is taken back, one that is there, a
request to stop, and a tree after it. -/
def mixedLines : List String :=
  ["\x7b\"groups\":[]\x7d", " \t", "\x7b\"groups\":[]", ":sources  a.jsom\x08n ",
    ":sourcespark.json", " :q", "\x7b\x7d"]

/-- The lines as an input that no line break ends. -/
def mixedInput : String :=
  "\x7b\"groups\":[]\x7d\n \t\n\x7b\"groups\":[]\n:sources  a.jsom\x08n \n:sourcespark.json\n" ++
    " :q\n\x7b\x7d"

/-- What is printed for them. -/
def mixedOutput : String :=
  "--- Criteria Compiler: 条件树到过滤查询 ---\n" ++
    "输入一行条件树JSON进行编译, `:sources <文件>` 列出数据源, `:quit` 退出\n" ++
    "()\n" ++
    "✗ 无法解析条件树JSON: cut off\n" ++
    "✗ 无法读取图层文件 a.json: No such file or directory (os error 2)\n" ++
    "park [7]\ntree [-8]\n---- leaf [9] relatedTo=[-8]\n---- root [10] relatedTo=[-8]\n"

theorem mixed_run_eq_join :
    IsInputOf mixedLines mixedInput ∧ heard mixedLines = mixedLines.take 5 ∧
      (∀ line ∈ heard mixedLines, IsDelivered line) ∧
      run (fun _ => "cut off") parkFiles none [] mixedInput = ⟨0, mixedOutput, ""⟩ ∧
      ∃ texts,
        run (fun _ => "cut off") parkFiles none [] mixedInput =
          ⟨0, opening ++ String.join texts, ""⟩ ∧
        List.Forall₂ (fun line text =>
          PrintsAlone (fun _ => "cut off") parkFiles none line text ∧
          Says (fun _ => "cut off") (Labels.loadOrEmpty parkFiles none) parkFiles line text)
          (heard mixedLines) texts := by
  have hlines : IsInputOf mixedLines mixedInput :=
    .cons (by decide) (.cons (by decide) (.cons (by decide) (.cons (by decide)
      (.cons (by decide) (.cons (by decide) (.last (by decide)))))))
  have hdelivered : ∀ line ∈ heard mixedLines, IsDelivered line := by decide +kernel
  exact ⟨hlines, by decide +kernel, hdelivered, by decide +kernel, run_eq_join _ _ _ hlines hdelivered⟩

end Console

end LayerQuery
