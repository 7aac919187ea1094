import PluginAudit.FailPolicy
import PluginAudit.Text.Case
import PluginAudit.Yaml.Reader

namespace PluginAudit

/-- Where the files that come with a plugin are, as the configuration gives them. -/
structure PackageFiles where
  composer : Value
  schema : Value
  hostConfig : Value
  manifest : Value
  routes : List String

structure Pipeline where
  package : PackageFiles
  /-- Functions that must not be called, in lower case. -/
  tokens : List String
  failPolicy : FailPolicy

namespace Pipeline

/-- The entries of a section; one that counts as nothing is empty. -/
def sectionOf (data : List (Value × Value)) (key : String) : Except Fault (List (Value × Value)) :=
  let v := (Value.lookup key data).getD .null
  if !v.isTruthy then .ok []
  else match v with
    | .map entries => .ok entries
    | _ => .error (.config (.sectionNotMapping key))

/-- The texts of a value that are not empty; a text stands for itself. -/
def textsOf : Option Value → Except Fault (List String)
  | none | some .null => .ok []
  | some (.text s) => .ok [s]
  | some (.list items) => .ok (items.filterMap text?)
  | some (.map entries) => .ok (entries.filterMap fun e => text? e.1)
  | some _ => .error .notCollection
where
  text? : Value → Option String
    | .text s => if s == "" then none else some s
    | _ => none

/-- The limit on the number of violations. -/
def limitOf : Option Value → Except Fault (Option Limit)
  | none | some .null => .ok none
  | some (.int n) => .ok (some (.count n))
  | some (.bool b) => .ok (some (.switch b))
  | some _ => .error (.config .totalLimitNotInteger)

/-- The limits of single types; whatever is no integer is left out. -/
def typeLimitsOf (entries : List (Value × Value)) : Table Int :=
  entries.foldl (fun t e =>
    match e.2 with
    | .int n => t.put e.1.asText n
    | .bool b => t.put e.1.asText (if b then 1 else 0)
    | _ => t) []

/-- The pipeline of a configuration. -/
def ofMapping (data : List (Value × Value)) : Except Fault Pipeline := do
  let package ← sectionOf data "headline"
  let scan ← sectionOf data "scan"
  let fail ← sectionOf data "fail_policy"
  let limit ← limitOf (Value.lookup "total_error_limit" fail)
  let perType := (Value.lookup "per_type_limits" fail).getD .null
  let perType ←
    if !perType.isTruthy then .ok []
    else match perType with
      | .map entries => .ok entries
      | _ => .error (.config .typeLimitsNotMapping)
  let composer := (Value.lookup "composer_json" package).getD .null
  let get := fun key => (Value.lookup key package).getD .null
  let routes ← textsOf (Value.lookup "route_files" package)
  let tokens ← textsOf (Value.lookup "token_list" scan)
  let blocklist ← textsOf (Value.lookup "types_blocklist" fail)
  let gates ← textsOf (Value.lookup "file_gates" fail)
  return {
    package := {
      composer := if composer.isTruthy then composer else .text "composer.json"
      schema := get "forti_schema"
      hostConfig := get "host_config"
      manifest := get "permission_manifest"
      routes := routes }
    tokens := tokens.map Text.lower
    failPolicy := {
      typesBlocklist := blocklist
      totalLimit := limit
      typeLimits := typeLimitsOf perType
      fileGates := gates } }

/-- The pipeline without a configuration. -/
def standard : Pipeline :=
  { package := ⟨.text "composer.json", .null, .null, .null, []⟩
    tokens := []
    failPolicy := ⟨[], none, [], []⟩ }

/-- The pipeline of a value, which has to be a mapping. -/
def ofValue : Value → Except Fault Pipeline
  | .map entries => ofMapping entries
  | _ => .error .notMapping

/-- The pipeline of a YAML text; an empty one is the standard pipeline. -/
def ofText (text : String) : Except Fault Pipeline :=
  match Yaml.parse text with
  | .error e => .error e.fault
  | .ok v =>
    if !v.isTruthy then ofMapping []
    else match v with
      | .map entries => ofMapping entries
      | _ => .error (.config .pipelineNotMapping)

/-- The pipeline of a file, by its path as given. -/
def ofFile (t : FileTree) (path : String) : Except Fault Pipeline :=
  match t.readText (Path.ofText path) with
  | .ok text => ofText text
  | .error (.file why _) =>
    let cause := ((Fault.file why path).message?).getD ""
    .error (.config (.unreadablePipeline path cause))
  | .error f => .error f

end Pipeline

end PluginAudit
