import PluginAudit.FileTree.Json
import PluginAudit.Schema

namespace PluginAudit

/-- How an audit comes to its directory and to its schema: the file system, a reader of JSON texts
and a check of schemas, which a library does. Each of them can fail in ways of its own. -/
structure Access where
  /-- The directory that a text stands for, if there is one that can be listed. -/
  directory? : String → Except Fault (Option Path)
  isFile : Path → Except Fault Bool
  readText : Path → Except Fault String
  /-- The value of a JSON text, or why it has none. -/
  parse : String → Except Fault (Except Json.Error Value)
  /-- The dialect of a schema, or what makes a value none. -/
  examine : Value → Except Fault (Except String Schema.Dialect)

namespace FileTree

/-- The directory that a text stands for, links followed. -/
def directory? (t : FileTree) (given : String) : Except Fault (Option Path) :=
  let root := t.resolve (Path.ofText given)
  match t.entry root with
  | .ok (.dir _) => .ok (some root)
  | .error .linkLoop => .error (.endlessLink root.text)
  | _ => .ok none

/-- Access to the files of a tree. -/
def access (t : FileTree) : Access where
  directory? := t.directory?
  isFile p := .ok (t.isFile p)
  readText := t.readText
  parse := Json.read
  examine := Schema.examine

instance : Coe FileTree Access := ⟨access⟩

end FileTree

end PluginAudit
