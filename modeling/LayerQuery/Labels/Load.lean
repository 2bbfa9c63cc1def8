import LayerQuery.Files
import LayerQuery.Labels.Basic
/-!
# Label files

Labels come from a file. What kept them from being read is told apart
where someone asks (`load`); the program itself goes on without labels
(`loadOrEmpty`).
-/

namespace LayerQuery

open Json

namespace Labels

/-- Why a label file gives no labels. -/
inductive LoadError where
  /-- There is no such file. -/
  | missing (path : String)
  /-- It cannot be read. -/
  | unreadable (path : String) (fault : FileFault)
  /-- Its text does not hold labels. -/
  | unparsable (path : String) (fault : Fault)
  deriving DecidableEq

/-- A failure in words; `describe` has the words for what is wrong with a text. -/
def LoadError.message (describe : Fault → String) : LoadError → String
  | .missing path => "配置文件不存在: " ++ path
  | .unreadable path fault => "无法读取配置文件 " ++ path ++ ": " ++ fault.message
  | .unparsable path fault => "无法解析JSON配置文件 " ++ path ++ ": " ++ describe fault

/-- The labels of a label file. -/
def load [Rounding] (files : Files) (path : String) : Except LoadError Labels :=
  match files path with
  | .error fault =>
    if fault.isAbsence then .error (.missing path) else .error (.unreadable path fault)
  | .ok text => (mapCodec.ofText text).mapError (.unparsable path)

/-- The path of the label file where none is given. -/
def defaultPath : String := "form_labels.json"

/-- The labels of the label file, or none if it gives none. -/
def loadOrEmpty [Rounding] (files : Files) (path : Option String) : Labels :=
  match load files (path.getD defaultPath) with
  | .ok ls => ls
  | .error _ => .empty

end Labels

end LayerQuery
