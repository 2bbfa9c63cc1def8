import LayerQuery.Console
/-!
# The program

The outer layer of the console: it fetches what the console reads, one
file for the labels and one for each answer that needs one, and prints
what the console says.
-/

namespace LayerQuery

open Console Json

/-- The reason that an error of the system stands for. -/
def FileFault.ofError : IO.Error → FileFault
  | .noFileOrDirectory .. => .notFound
  | .inappropriateType _ code _ => if code = 21 then .isDirectory else .notDirectory
  | .invalidArgument _ code _ => if code = 36 then .nameTooLong else .noName
  | .permissionDenied .. => .other "Permission denied (os error 13)"
  | e => .other (toString e)

/-- What is at a path. -/
def fetch (path : String) : IO (Except FileFault String) := do
  try
    let bytes ← IO.FS.readBinFile path
    match String.fromUTF8? bytes with
    | some text => return .ok text
    | none => return .error .notText
  catch e => return .error (.ofError e)

/-- What is wrong with a JSON text, in words. -/
def describe : Fault → String
  | .malformed => "malformed JSON"
  | .data problem => problem.message

/-- Answers lines until the input ends, asks to stop or cannot be delivered, and gives the exit
code. -/
partial def answerLines (labels : Labels) : IO UInt32 := do
  let line ← (← IO.getStdin).getLine
  if line.isEmpty then return 0
  match Request.ofLine? line with
  | none => return 101
  | some .quit => return 0
  | some request =>
    let files : Files ← match request.path? with
      | some path => do
        let content ← fetch path
        pure fun _ => content
      | none => pure fun _ => .error .notFound
    IO.print (answer describe labels files request)
    answerLines labels

/-- A run with a file prints its query; a run without answers lines. -/
def runProgram (arguments : List String) : IO UInt32 := do
  match arguments with
  | path :: _ =>
    let content ← fetch path
    let outcome := single describe (fun _ => content) path
    IO.print outcome.output
    IO.eprint outcome.errors
    return outcome.exitCode.toUInt32
  | [] =>
    let labelPath ← IO.getEnv "CRITERIA_FORM_LABELS"
    let content ← fetch (labelPath.getD Labels.defaultPath)
    let labels := Labels.loadOrEmpty (fun _ => content) labelPath
    IO.print greeting
    answerLines labels

end LayerQuery

/-- The command line. -/
def main (arguments : List String) : IO UInt32 :=
  LayerQuery.runProgram arguments
