import LayerQuery.Compile.Tree
import LayerQuery.Labels.Load
import LayerQuery.Relations.Outline
import LayerQuery.Text.Typed
/-!
# The console

The program is run with a file, whose tree it compiles, or without, and
then it answers one line after another: a line is a tree to compile, a
request for the sources of a layer file, or a request to stop. An answer
hangs on the line, the labels and the files alone, so a session is the
answers one after the other up to the request to stop. It goes down at a
line that cannot be delivered.

What is said about the fault of a JSON text is left to a function
`describe`, since its wording is no concern of the program. The log is
left out: at its usual level the program also writes log lines to its
output, with the time of day in them, one if the labels cannot be loaded
and one for each relation that comes back to a feature type on the way
to it. Left out are also the words of the system for a program that goes
down.
-/

namespace LayerQuery

open Criteria Relations Json

namespace Console

/-- Why the program has no answer: what it was doing, and what came in its way if that came from
outside. -/
structure Failure where
  context : String
  cause : Option String
  deriving DecidableEq, Repr

/-- A failure on one line. -/
def Failure.line (f : Failure) : String :=
  match f.cause with
  | some cause => f.context ++ ": " ++ cause
  | none => f.context

/-- A text with four blanks before each of its lines. -/
def indented (text : String) : String :=
  String.ofList ("    ".toList ++
    text.toList.flatMap fun c => if c = '\n' then "\n    ".toList else [c])

/-- A failure as the last words of the program. -/
def Failure.report (f : Failure) : String :=
  match f.cause with
  | some cause => "Error: " ++ f.context ++ "\n\nCaused by:\n" ++ indented cause ++ "\n"
  | none => "Error: " ++ f.context ++ "\n"

/-- Lines of output, each ended by a line break. -/
def unlines (lines : List String) : String :=
  String.join (lines.map (· ++ "\n"))

@[simp] theorem unlines_singleton (line : String) : unlines [line] = line ++ "\n" := by
  simp [unlines, String.join_cons]

variable [Rounding]

/-! ## Compiling -/

/-- The query of the tree that a text describes. The tree has to be valid. -/
def compileText (describe : Fault → String) (text : String) : Except Failure String :=
  match Tree.codec.ofText text with
  | .error fault => .error ⟨"无法解析条件树JSON", some (describe fault)⟩
  | .ok tree =>
    if tree.isValid then tree.query.mapError fun e => ⟨e.message, none⟩
    else .error ⟨"条件树无效: 存在空的条件组或缺少必填字段的条件", none⟩

/-- The query of the tree that a file describes. -/
def compileFile (describe : Fault → String) (files : Files) (path : String) :
    Except Failure String :=
  match files path with
  | .error fault => .error ⟨"无法读取条件文件 " ++ path, some fault.message⟩
  | .ok text => compileText describe text

/-! ## Listing sources -/

/-- A chain of feature types as a list between brackets. -/
def chainText (chain : List FeatureTypeId) : String :=
  "[" ++ ", ".intercalate (chain.map fun t => integerText t.toInt) ++ "]"

/-- The line for an entry; a chain is shown unless it is empty. -/
def entryLine (e : Entry) : String :=
  e.label ++ " [" ++ integerText e.featureType.toInt ++ "]" ++
    match e.relatedTo with
    | some (t :: ts) => " relatedTo=" ++ chainText (t :: ts)
    | _ => ""

/-- The lines for the sources of a layer. Without sources a line says so. -/
def sourceLines (labels : Labels) (file : LayerFile) : List String :=
  match sources labels.label? file.layer file.metadata with
  | [] => ["⚠️ 元数据尚未加载, 没有可选数据源"]
  | entries => entries.map entryLine

/-- The lines for the sources of a layer file. -/
def listSources (describe : Fault → String) (labels : Labels) (files : Files) (path : String) :
    Except Failure (List String) :=
  match files path with
  | .error fault => .error ⟨"无法读取图层文件 " ++ path, some fault.message⟩
  | .ok text =>
    match LayerFile.codec.ofText text with
    | .error fault => .error ⟨"无法解析图层文件 " ++ path, some (describe fault)⟩
    | .ok file => .ok (sourceLines labels file)

/-! ## Lines -/

/-- What a line asks for. -/
inductive Request where
  /-- Nothing: the line is blank. -/
  | nothing
  /-- To stop. -/
  | quit
  /-- The sources of the layer file at a path. -/
  | sources (path : String)
  /-- The query of the tree that a text describes. -/
  | compile (text : String)
  deriving DecidableEq, Repr

/-- The word that asks for sources; the path follows it, with or without blanks between. -/
def sourcesWord : List Char := ":sources".toList

/-- What a text asks for. Blanks around it do not matter. -/
def Request.ofText (text : String) : Request :=
  let text := Text.trim text
  if text = "" then .nothing
  else if text = ":quit" ∨ text = ":q" then .quit
  else if sourcesWord.isPrefixOf text.toList then
    .sources (Text.trim (String.ofList (text.toList.drop sourcesWord.length)))
  else .compile text

/-- What a line asks for once its backspaces have taken effect, if it can be delivered. -/
def Request.ofLine? (line : String) : Option Request :=
  (Text.typed? line).map Request.ofText

/-- The file that has to be read for an answer. -/
def Request.path? : Request → Option String
  | .sources path => some path
  | _ => none

/-- The answer to a request: the sources or the query asked for, or one line about the failure. -/
def answer (describe : Fault → String) (labels : Labels) (files : Files) : Request → String
  | .nothing => ""
  | .quit => ""
  | .sources path =>
    match listSources describe labels files path with
    | .ok lines => unlines lines
    | .error f => unlines ["✗ " ++ f.line]
  | .compile text =>
    match compileText describe text with
    | .ok query => unlines [query]
    | .error f => unlines ["✗ " ++ f.line]

/-- The lines that open a session. -/
def greeting : String :=
  unlines
    ["--- Criteria Compiler: 条件树到过滤查询 ---",
      "输入一行条件树JSON进行编译, `:sources <文件>` 列出数据源, `:quit` 退出"]

/-- The lines of an input, the characters of the line that is being read coming first. -/
def splitLines : List Char → List (List Char)
  | [] => [[]]
  | c :: cs =>
    if c = '\n' then [] :: splitLines cs
    else match splitLines cs with
      | [] => [[c]]
      | line :: lines => (c :: line) :: lines

/-! ## The program -/

/-- What a run of the program leaves behind. -/
structure Outcome where
  exitCode : Nat
  output : String
  errors : String
  deriving DecidableEq, Repr

/-- The same with a text put out before. -/
def Outcome.after (o : Outcome) (text : String) : Outcome :=
  { o with output := text ++ o.output }

/-- The answers to lines, up to the request to stop or the first line that cannot be delivered. -/
def answers (describe : Fault → String) (labels : Labels) (files : Files) : List String → Outcome
  | [] => ⟨0, "", ""⟩
  | line :: lines =>
    match Request.ofLine? line with
    | none => ⟨101, "", ""⟩
    | some .quit => ⟨0, "", ""⟩
    | some request =>
      (answers describe labels files lines).after (answer describe labels files request)

/-- A session over the lines of an input. -/
def session (describe : Fault → String) (labels : Labels) (files : Files) (input : String) :
    Outcome :=
  let lines := (splitLines input.toList).map String.ofList
  (answers describe labels files lines).after greeting

/-- The query of a file, or the failure as last words. -/
def single (describe : Fault → String) (files : Files) (path : String) : Outcome :=
  match compileFile describe files path with
  | .ok query => ⟨0, unlines [query], ""⟩
  | .error f => ⟨1, "", f.report⟩

/-- A run of the program: with the path of a file as the first argument, or without arguments and
with an input. -/
def run (describe : Fault → String) (files : Files) (labelPath : Option String)
    (arguments : List String) (input : String) : Outcome :=
  match arguments with
  | path :: _ => single describe files path
  | [] => session describe (Labels.loadOrEmpty files labelPath) files input

end Console

end LayerQuery
