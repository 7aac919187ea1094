import PluginAudit.Policy
import PluginAudit.Value.Integer

namespace PluginAudit.Policy

/-- The texts of a value: those of its items, except null and blank ones. A mapping stands for its
keys, a text for itself. -/
def textList : Option Value → Except Fault (List String)
  | none | some .null => .ok []
  | some (.text s) => .ok [s]
  | some (.list items) => .ok (ofItems items)
  | some (.map entries) => .ok (ofItems (entries.map Prod.fst))
  | some _ => .error .notCollection
where
  ofItems (items : List Value) : List String :=
    items.filterMap fun v =>
      match v with
      | .null => none
      | v => if Text.strip v.asText == "" then none else some v.asText

/-- The texts of a value in lower case, without blanks around them and without repetitions. -/
def lowerSet (v : Option Value) : Except Fault (List String) := do
  return Text.distinct ((← textList v).map fun s => Text.lower (Text.strip s))

/-- The names of the first list that are not in the second. -/
def without (names removed : List String) : List String :=
  names.filter fun n => !removed.contains n

def union (lists : List (List String)) : List String :=
  Text.distinct lists.flatten

def trimNamespace (name : String) : String :=
  Text.trimBackslashes (Text.strip name)

/-- The entries of a section; a section that counts as nothing is empty. -/
def section? (v : Option Value) : Except Fault (List (Value × Value)) :=
  match v with
  | none => .ok []
  | some v =>
    if !v.isTruthy then .ok []
    else match v with
      | .map entries => .ok entries
      | _ => .error .notMapping

/-- Adds the methods of each listed class to those already known. -/
def addClassMethods (table : Table (List String)) :
    List (Value × Value) → Except Fault (Table (List String))
  | [] => .ok table
  | (cls, methods) :: rest => do
    let key := Text.lower (trimNamespace cls.asText)
    let names ← lowerSet (some methods)
    addClassMethods (table.put key (union [(table.find? key).getD [], names])) rest

def defaultExtensions : List String := ["php", "phtml", "phpt"]

def defaultWebFileBytes : Int := 262144

/-- The extension without dots in front, in lower case. -/
def extensionKey (e : String) : String :=
  Text.trimLeft (· == '.') (Text.lower e)

/-- The sizes of a mapping from extensions to numbers. -/
def sizes (table : Table Int) : List (Value × Value) → Except Fault (Table Int)
  | [] => .ok table
  | (ext, size) :: rest => do
    let n ← size.toInteger
    sizes (table.put (extensionKey ext.asText) n) rest

/-- A switch: whatever counts as something is on. -/
def switch (scan : List (Value × Value)) (key : String) (unset : Bool) : Bool :=
  match Value.lookup key scan with
  | some v => v.isTruthy
  | none => unset

def buildLimits (v : Option Value) : Except Fault ScanLimits := do
  let scan ← section? v
  let listed := (← textList (Value.lookup "php_extensions" scan)).map extensionKey
  let listed := if listed.isEmpty then defaultExtensions else listed
  let listed := if listed.contains "php" then listed else "php" :: listed
  let scanSize ← sizes [] (← section? (Value.lookup "scan_size" scan))
  let maxWeb ←
    match Value.lookup "max_web_file_bytes" scan with
    | some n => n.toInteger
    | none => .ok defaultWebFileBytes
  let ignore ← textList (Value.lookup "ignore" scan)
  return {
    phpExtensions := Text.distinct listed
    scanSize := scanSize
    maxWebFileBytes := maxWeb
    strictIgnoreBlocksPayload := switch scan "strict_ignore_blocks_payload" false
    shortOpenTags := switch scan "short_open_tags" false
    emitPreFlags := switch scan "emit_pre_flags" true
    includeNonPhp := switch scan "include_non_php" false
    ignore := ignore }

/-- The policy of a mapping in which everything inherited is merged. -/
def build (data : List (Value × Value)) : Except Fault Policy := do
  let get := fun key => Value.lookup key data
  -- An ill-formed section is a fault only where it is first used.
  let functions := section? (get "functions")
  let overrides := section? (get "overrides")
  let exempt := fun key => do lowerSet (Value.lookup key (← overrides))
  let listed := fun key => do lowerSet (Value.lookup key (← functions))
  let lifted := union [← exempt "functions", ← exempt "tokens", ← exempt "dangerous"]
  let dangerous := without (← listed "dangerous") lifted
  let risky := without (← listed "tokens") lifted
  let forbidden := without
    (union [← listed "forbidden", ← listed "file_io", ← listed "stream", ← listed "curl"]) lifted
  let environment ← listed "environment"
  let obfuscators ← listed "obfuscators"
  let unsupported := without (union [dangerous, risky, environment, obfuscators]) lifted
  let allowed := (← textList (Value.lookup "namespaces" (← overrides))).map trimNamespace
  let allowedKeys := allowed.map Text.lower
  let namespaces := (Text.distinct ((← textList (get "namespaces")).map trimNamespace)).filter
    fun ns => ns != "" && !allowedKeys.contains (Text.lower ns)
  let wrappers := Text.distinct ((← textList (get "wrappers")).map Text.lower)
  let wrappers ←
    if wrappers.isEmpty then pure [] else (do return without wrappers (← exempt "wrappers"))
  let callbacks ← listed "callbacks"
  let packages := without (← lowerSet (get "packages")) (← exempt "packages")
  let magic := without (← lowerSet (get "magic_methods")) (← exempt "magic_methods")
  let classes ← addClassMethods [] (← section? (get "allowed_class_methods"))
  let classes ← addClassMethods classes (← section? (Value.lookup "classes" (← overrides)))
  let limits ← buildLimits (get "scan")
  let inherit ← textList (get "inherit")
  return {
    name := (get "name").getD (.text "unnamed")
    description := (get "description").getD (.text "")
    forbiddenFunctions := forbidden
    unsupportedFunctions := unsupported
    dangerousFunctions := dangerous
    riskyFunctions := risky
    obfuscators := obfuscators
    callbackFunctions := callbacks
    forbiddenNamespaces := namespaces
    forbiddenPackages := packages
    reflectionPrefix := Text.lower ((get "reflection_prefix").getD (.text "Reflection")).asText
    allowedNamespaces := allowed
    magicMethods := magic
    wrappers := wrappers
    allowedClassMethods := classes
    limits := limits
    inherit := inherit }

end PluginAudit.Policy
