import PluginAudit.Value
import PluginAudit.Table

namespace PluginAudit

inductive Severity where
  | critical | high | medium | low | info
  deriving DecidableEq, Repr, Inhabited

namespace Severity

def label : Severity → String
  | .critical => "critical"
  | .high => "high"
  | .medium => "medium"
  | .low => "low"
  | .info => "info"

/-- The most severe come first. -/
def rank : Severity → Nat
  | .critical => 0
  | .high => 1
  | .medium => 2
  | .low => 3
  | .info => 4

end Severity

/-- A finding of a type, at a line of a file (zero for the file as a whole). `data` holds what is
particular to the type. -/
structure Violation where
  type : String
  severity : Severity
  file : String
  line : Nat
  snippet : String
  issue : String
  data : Table Value
  deriving Inhabited

namespace Violation

/-- A violation as a record. Empty texts are left out; data take the place of fields of the same
name. -/
def record (v : Violation) : Table Value :=
  let base : Table Value :=
    [("type", .text v.type), ("severity", .text v.severity.label), ("file", .text v.file),
      ("line", .ofNat v.line)]
  let base := if v.snippet == "" then base else base ++ [("snippet", .text v.snippet)]
  let base := if v.issue == "" then base else base ++ [("issue", .text v.issue)]
  v.data.foldl (fun r e => Table.put r e.1 e.2) base

def toValue (v : Violation) : Value :=
  .object v.record

end Violation

end PluginAudit
