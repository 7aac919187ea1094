import PluginAudit.FileTree
import PluginAudit.Json.Reader

namespace PluginAudit

/-- Why a JSON file cannot be read. -/
inductive JsonFileFault where
  | file (why : FileFault) (path : String)
  | encoding (e : Text.Utf8Error)
  | json (source : String) (e : Json.Error)
  /-- A fault that those who read JSON files do not reckon with. -/
  | other (f : Fault)

def JsonFileFault.message : JsonFileFault → String
  | .file why path => s!"{why.message}: {Text.quoted path}"
  | .encoding e => e.message
  | .json source e => e.message source
  | .other f => f.issue

/-- The value of a JSON text, or why it is none. That it is none because of a long integer is no
answer but a fault. -/
def Json.read (source : String) : Except PluginAudit.Fault (Except Error Value) :=
  match Json.parse source with
  | .ok v => .ok (.ok v)
  | .error ⟨.longInteger digits, _⟩ => .error (.longInteger digits)
  | .error e => .ok (.error e)

/-- The value of a JSON file. -/
def FileTree.readJson (t : FileTree) (p : Path) : Except JsonFileFault Value :=
  match t.readText p with
  | .error (.file why path) => .error (.file why path)
  | .error (.encoding e) => .error (.encoding e)
  | .error f => .error (.other f)
  | .ok source =>
    match Json.read source with
    | .ok (.ok v) => .ok v
    | .ok (.error e) => .error (.json source e)
    | .error f => .error (.other f)

/-- A fault of reading a JSON file that those who read it do not reckon with. -/
def FileTree.unforeseen? (t : FileTree) (p : Path) : Option Fault :=
  match t.readJson p with
  | .error (.other f) => some f
  | _ => none

end PluginAudit
