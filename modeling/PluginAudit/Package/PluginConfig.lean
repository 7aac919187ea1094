import PluginAudit.Access

namespace PluginAudit.Package

def configFileName : String := "plugin.config.json"

/-- A schema for configuration files that is itself in order. -/
structure ConfigSchema where
  dialect : Schema.Dialect
  schema : Value

/-- Reads a schema. A file that cannot be read, that is no JSON or no schema is a fault of the
configuration; all else that can go wrong is passed on. -/
def ConfigSchema.loadVia (via : Access) (path : Path) : Except Fault ConfigSchema :=
  match via.readText path with
  | .error f => .error (if f.isFile then .config (.unreadableSchema path.text f.issue) else f)
  | .ok text => do
    match ← via.parse text with
    | .error e => .error (.config (.unreadableSchema path.text (e.message text)))
    | .ok schema =>
      match ← via.examine schema with
      | .error flaw => .error (.config (.invalidSchema path.text flaw))
      | .ok dialect => return ⟨dialect, schema⟩

/-- Reads a schema from a file of a tree. -/
def ConfigSchema.load (t : FileTree) (path : Path) : Except Fault ConfigSchema :=
  loadVia t path

/-- What comes of checking a configuration file. -/
inductive ConfigReport where
  | valid
  | missing
  | unreadable (cause : String)
  | refused (mismatches : List Schema.Mismatch)

/-- A mismatch as a record. -/
def mismatchRecord (m : Schema.Mismatch) : List (String × Value) :=
  let path := String.join (m.path.map fun part => "/" ++ part)
  [("path", .text (if path == "" then "/" else path)), ("message", .text m.message),
    ("keyword", .ofText? m.keyword), ("args", m.args)]

namespace ConfigReport

/-- The message of a report on a file that is not in order. -/
def error? : ConfigReport → Option String
  | .valid => none
  | .missing => some s!"{configFileName} not found"
  | .unreadable cause => some s!"Invalid JSON in {configFileName}: {cause}"
  | .refused _ => some "Schema validation failed"

def details : ConfigReport → List (List (String × Value))
  | .refused ms => ms.map mismatchRecord
  | _ => []

def toValue (r : ConfigReport) : Value :=
  let details :=
    match r with
    | .refused _ => [("details", Value.list (r.details.map .object))]
    | _ => []
  .object ((r.error?.map fun e => ("error", Value.text e)).toList ++ details)

end ConfigReport

/-- Checks the configuration file in the root directory of a plugin. -/
def ConfigSchema.check (s : ConfigSchema) (t : FileTree) (root : Path) :
    Except Fault ConfigReport :=
  let file := root.child configFileName
  if !t.isFile file then .ok .missing
  else match t.readJson file with
    | .error (.other f) => .error f
    | .error e => .ok (.unreadable e.message)
    | .ok v => do
      match ← Schema.mismatches s.dialect s.schema v with
      | [] => return .valid
      | ms => return .refused ms

end PluginAudit.Package
