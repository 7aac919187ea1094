import PluginAudit.FileTree.Json
import PluginAudit.Policy
import PluginAudit.Violation

namespace PluginAudit.Package

/-- The sections of a package file that list dependencies. -/
def dependencySections : List String := ["require", "require-dev"]

def dependencyViolation (file type : String) (severity : Severity) (issue : String)
    (data : Table Value) : Violation where
  type := type
  severity := severity
  file := file
  line := 0
  snippet := ""
  issue := issue
  data := data

/-- The dependencies of a section; whatever is no mapping has none. -/
def dependencies (data : List (Value × Value)) (section_ : String) : List (String × Value) :=
  match Value.lookup section_ data with
  | some (.map entries) => entries.map fun e => (e.1.asText, e.2)
  | _ => []

/-- The forbidden packages of one section. -/
def forbiddenDependencies (p : Policy) (file : String) (data : List (Value × Value))
    (section_ : String) : List Violation :=
  (dependencies data section_).filterMap fun (package, version) =>
    if p.isForbiddenPackage package then
      some (dependencyViolation file "forbidden_package_dependency" .critical
        s!"Composer requires forbidden package: {package}"
        [("package", .text package), ("version", version), ("section", .text section_)])
    else none

/-- One violation for each forbidden package, or one for a file that is missing or not an object
with entries. -/
def scanDependencies (p : Policy) (t : FileTree) (path : Path) : List Violation :=
  let file := path.text
  if !t.isFile path then
    [dependencyViolation file "composer_file_missing" .medium "composer.json not found" []]
  else match t.readJson path with
    | .ok (.map (e :: rest)) =>
      dependencySections.flatMap (forbiddenDependencies p file (e :: rest))
    | _ =>
      [dependencyViolation file "composer_file_invalid" .high "Invalid JSON in composer.json" []]

end PluginAudit.Package
