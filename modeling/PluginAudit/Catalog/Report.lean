import PluginAudit.Catalog
import PluginAudit.Template
import PluginAudit.Text.Case
import PluginAudit.Text.Parts

namespace PluginAudit

namespace Catalog

/-- The severity of violations of an unknown type. -/
def unknownSeverity : Severity := .medium

/-- The name of an unknown type: its words with capitals. -/
def nameOf (type : String) : String :=
  Text.title (Text.replaceChar '_' ' ' (Text.replaceChar '.' ' ' type))

/-- How a type is presented, whether it is known or not. -/
def lookup (type : String) : CatalogEntry :=
  match entries.find? type with
  | some e => e
  | none => ⟨nameOf type, s!"An issue of type \"{type}\" was reported.", unknownSeverity⟩

end Catalog

/-- A violation in words. -/
structure Report where
  type : String
  name : String
  description : String
  severity : String
  file : String
  line : Int
  snippet : String
  issue : String
  deriving DecidableEq, Repr

namespace Report

/-- The description filled from the record; if that cannot be done, the issue, and without one the
description as it stands. -/
def describe (entry : CatalogEntry) (issue : String) (record : Table Value) :
    Except Fault String :=
  match Template.fill entry.description record with
  | .ok s => .ok s
  | .error .unfilled => .ok (if issue == "" then entry.description else issue)
  | .error (.fault f) => .error f

/-- The text of a field of a record. -/
def textOf (record : Table Value) (key unset : String) : String :=
  ((record.find? key).map Value.asText).getD unset

/-- What is said of a record of a violation. -/
def ofRecord (record : Table Value) : Except Fault Report := do
  let type := textOf record "type" "unknown"
  let entry := Catalog.lookup type
  let issue := textOf record "issue" ""
  let description ← describe entry issue record
  let given := (record.find? "severity").getD .null
  let line := (record.find? "line").getD .null
  let line ← if line.isTruthy then line.toInteger else .ok 0
  return {
    type := type
    name := entry.name
    description := description
    severity := if given.isTruthy then given.asText else entry.severity.label
    file := textOf record "file" ""
    line := line
    snippet := textOf record "snippet" ""
    issue := issue }

def ofViolation (v : Violation) : Except Fault Report :=
  ofRecord v.record

def toValue (r : Report) : Value :=
  .object [("type", .text r.type), ("name", .text r.name), ("description", .text r.description),
    ("severity", .text r.severity), ("file", .text r.file), ("line", .int r.line),
    ("snippet", .text r.snippet), ("issue", .text r.issue)]

end Report

end PluginAudit
