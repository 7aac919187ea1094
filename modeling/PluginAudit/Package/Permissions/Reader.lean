import PluginAudit.Package.Checked
import PluginAudit.Package.Fault
import PluginAudit.Package.IpNetwork
import PluginAudit.Package.Permissions
import PluginAudit.Text.Case
import PluginAudit.Text.Parts

namespace PluginAudit.Package

open Check

def optionalTexts : Field → Checked (Option (List String)) :=
  optional (list text)

def readAudit : Check Audit :=
  object "Audit" ["log", "redact_fields", "tags"] fun get =>
    Audit.mk <$> optional (oneOf ["always", "on_deny", "never"]) (get "log")
      <*> optionalTexts (get "redact_fields") <*> optionalTexts (get "tags")

def readEnvCondition : Check EnvCondition :=
  object "EnvCondition" ["allow", "deny"] fun get =>
    EnvCondition.mk <$> optionalTexts (get "allow") <*> optionalTexts (get "deny")

/-- A text or a number; what is neither is refused once for each. -/
def settingLink : Check Value := fun path v =>
  match v with
  | .text _ | .int _ | .float _ => .valid v
  | _ =>
    .invalid ((text (path ++ ".str") v).issues ++ (integer (path ++ ".int") v).issues ++
      (number (path ++ ".float") v).issues)

def readConditions : Check Conditions :=
  object "Conditions" ["setting_link", "guard", "env"] fun get =>
    Conditions.mk <$> optional settingLink (get "setting_link")
      <*> optional nonEmptyText (get "guard") <*> optional readEnvCondition (get "env")

def termKeys : List String := ["conditions", "audit", "justification", "type"]

def readTerms (get : String → Field) : Checked Terms :=
  Terms.mk <$> optional readConditions (get "conditions") <*> optional readAudit (get "audit")
    <*> optional text (get "justification")

/-- One table or model, with different columns. -/
def readDbTarget : Check DbTarget := fun path v =>
  let read := object "DbTarget" ["model", "table", "columns"] fun get =>
    DbTarget.mk <$> optional nonEmptyText (get "model") <*> optional nonEmptyText (get "table")
      <*> optionalTexts (get "columns")
  (read path v).ensure path fun t =>
    if t.model.isNone == t.table.isNone then
      some "exactly one of 'model' or 'table' is required"
    else if t.columns.any fun cs => (Text.distinct cs).length != cs.length then
      some "columns must be an array of unique strings"
    else none

/-- Whether a path leads out of its directory at some point. -/
def climbs (path : String) : Bool :=
  (Text.splitBy (fun c => c == '\\' || c == '/') path).contains ".."

def readDirPaths : Check (List String) := fun path v =>
  ((nonEmptyList text path v).ensure path fun ps =>
    (ps.find? climbs).map fun p => s!"path must not contain '..': {p}").map Text.distinct

def readDirTarget : Check DirTarget :=
  object "FileTarget" ["base_dir", "paths", "follow_symlinks"] fun get =>
    DirTarget.mk <$> required nonEmptyText (get "base_dir") <*> required readDirPaths (get "paths")
      <*> orElse switch false (get "follow_symlinks")

def isHostChar (c : Char) : Bool :=
  c.isLower || c.isDigit || c == '.' || c == '-'

/-- A host name in lower case, with an optional `*.` in front. -/
def isHostPattern (s : String) : Bool :=
  match s.toList with
  | '*' :: '.' :: rest => !rest.isEmpty && rest.all isHostChar
  | cs => !cs.isEmpty && cs.all isHostChar

def hostPattern : Check String := fun path v =>
  (text path v).ensure path fun s =>
    if isHostPattern s then none
    else some "String should match pattern '^([a-z0-9.-]+|\\*\\.[a-z0-9.-]+)$'"

/-- The characters besides `a` to `z` whose capitals are of ASCII. -/
def asciiCapitals : List (Char × String) :=
  [('ß', "SS"), ('ı', "I"), ('ſ', "S"), ('ﬀ', "FF"), ('ﬁ', "FI"), ('ﬂ', "FL"), ('ﬃ', "FFI"),
    ('ﬄ', "FFL"), ('ﬅ', "ST"), ('ﬆ', "ST")]

/-- A word with the capitals of ASCII. -/
def raised (s : String) : String :=
  String.ofList (s.toList.flatMap fun c =>
    match asciiCapitals.find? fun e => e.1 == c with
    | some e => e.2.toList
    | none => [c.toUpper])

/-- A method of the web protocol, in whatever case. -/
def httpMethod : Check String := fun path v =>
  oneOf ["GET", "POST", "PUT", "PATCH", "DELETE", "HEAD", "OPTIONS"] path
    (match v with
      | .text s => .text (raised s)
      | v => v)

def portNumber : Check Int := fun path v =>
  (integer path v).ensure path fun n =>
    if n < 1 then some "Input should be greater than or equal to 1"
    else if 65535 < n then some "Input should be less than or equal to 65535"
    else none

def ipNetworks : Check (List String) := fun path v =>
  (list text path v).ensure path fun ips =>
    (ips.find? fun ip => !IpNetwork.isNetwork ip).map fun ip => s!"invalid IP '{ip}'"

def readNetworkTarget : Check NetworkTarget :=
  object "NetworkTarget" ["hosts", "methods", "schemes", "ports", "ips_allowed",
      "headers_allowed", "paths", "auth_via_host_secret"] fun get =>
    NetworkTarget.mk
      <$> (required (nonEmptyList hostPattern) (get "hosts")).map Text.distinct
      <*> (required (nonEmptyList httpMethod) (get "methods")).map Text.distinct
      <*> optional (list (oneOf ["https", "http"])) (get "schemes")
      <*> optional (list portNumber) (get "ports")
      <*> optional ipNetworks (get "ips_allowed")
      <*> optionalTexts (get "headers_allowed") <*> optionalTexts (get "paths")
      <*> orElse switch true (get "auth_via_host_secret")

def readNotifyTarget : Check NotifyTarget :=
  object "NotifyTarget" ["channels", "templates", "recipients"] fun get =>
    NotifyTarget.mk <$> required (nonEmptyList text) (get "channels")
      <*> optionalTexts (get "templates") <*> optionalTexts (get "recipients")

def readModuleTarget : Check ModuleTarget :=
  object "ModuleTarget" ["plugin", "apis"] fun get =>
    ModuleTarget.mk <$> required nonEmptyText (get "plugin")
      <*> required (nonEmptyList text) (get "apis")

/-- Lower-case letters, digits and underscores; a line feed may end the name. -/
def isMethodName (s : String) : Bool :=
  let cs := s.toList
  let cs := if cs.getLast? == some '\n' then cs.dropLast else cs
  !cs.isEmpty && cs.all fun c => c.isLower || c.isDigit || c == '_'

/-- A star or a list; what is neither is refused once for each. -/
def codecMethods : Check CodecMethods := fun path v =>
  match v with
  | .text "*" => .valid .all
  | v =>
    match list text path v with
    | .valid names =>
      match names.find? fun n => !isMethodName n with
      | some n => .fail path s!"invalid method name '{n}'"
      | none => .valid (.listed names)
    | .invalid is => .invalid ((oneOf ["*"] path v).issues ++ is)

def readCodecOptions : Check (Option (List String)) :=
  object "CodecOptions" ["allow_unserialize_classes"] fun get =>
    optional (list nonEmptyText) (get "allow_unserialize_classes")

/-- Whether a use of codecs can bring back objects. -/
def CodecUse.needsGuard (u : CodecUse) : Bool :=
  match u.methods with
  | some .all => true
  | methods =>
    (match methods with
      | some (.listed names) => names.contains "unserialize"
      | _ => false) || u.groups.any fun gs => gs.contains "serialize"

/-- What is wrong with a use of codecs as a whole. -/
def CodecUse.fault? (u : CodecUse) : Option String :=
  if u.methods.isNone && u.groups.isNone then
    some "codec rule requires one of: methods or groups"
  else if u.needsGuard && !u.options.any Option.isSome then
    some ("options.allow_unserialize_classes is required when methods=\"*\" " ++
      "or includes \"unserialize\", or groups include \"serialize\"")
  else none

/-- Reads a permission whose capability has a target and one of the given actions. -/
def readRule {α : Type} (make : α → Capability) (target : Check α) (actions : List String)
    (path : String) (entries : List (Value × Value)) : Checked Permission :=
  fields (termKeys ++ ["target", "actions"]) path entries fun get =>
    (fun terms t acts => ⟨terms, make t, acts⟩) <$> readTerms get
      <*> required target (get "target")
      <*> required (nonEmptyList (oneOf actions)) (get "actions")

def readCodecRule (path : String) (entries : List (Value × Value)) : Checked Permission :=
  let keys := termKeys ++ ["target", "actions", "methods", "groups", "options"]
  let read := fields keys path entries fun get =>
    (fun terms _ acts methods groups options =>
        (terms, acts, CodecUse.mk methods groups options)) <$> readTerms get
      <*> required (oneOf ["codec"]) (get "target")
      <*> required (nonEmptyList (oneOf ["invoke"])) (get "actions")
      <*> optional codecMethods (get "methods") <*> optionalTexts (get "groups")
      <*> optional readCodecOptions (get "options")
  (read.ensure path fun (_, _, use) => use.fault?).map fun (terms, acts, use) =>
    ⟨terms, .codec use, acts⟩

/-- The types of permissions. -/
def permissionTypes : List String := ["db", "file", "network", "notify", "module", "codec"]

def readPermission : Check Permission := fun path v =>
  match v with
  | .map entries =>
    match Value.lookup "type" entries with
    | none => .fail path "Unable to extract tag using discriminator 'type'"
    | some type =>
      let shown := match type with | .text s => s | _ => ""
      match shown with
      | "db" => readRule .db readDbTarget
          ["select", "insert", "update", "delete", "truncate", "transaction"] path entries
      | "file" => readRule .file readDirTarget
          ["read", "write", "append", "delete", "mkdir", "rmdir", "list"] path entries
      | "network" => readRule .network readNetworkTarget ["request"] path entries
      | "notify" => readRule .notify readNotifyTarget ["send"] path entries
      | "module" =>
        readRule .module readModuleTarget ["call", "publish", "subscribe"] path entries
      | "codec" => readCodecRule path entries
      | _ =>
        let known := String.intercalate ", " (permissionTypes.map fun t => "'" ++ t ++ "'")
        .fail path (s!"Input tag '{type.asText}' found using 'type' does not match any of the " ++
          s!"expected tags: {known}")
  | _ => .fail path "Input should be a valid dictionary or object to extract fields from"

/-- The key that a field is given by: the first of two if it is there. -/
def keyOf (entries : List (Value × Value)) (first second : String) : String :=
  if (Value.lookup first entries).isSome || (Value.lookup second entries).isNone then first
  else second

def readManifest (entries : List (Value × Value)) : Checked Manifest :=
  let schemaKey := keyOf entries "$schema" "schema_uri"
  let idKey := keyOf entries "$id" "manifest_id"
  let known := ["required_permissions", "optional_permissions", schemaKey, idKey, "title",
    "description"]
  fields known "$" entries fun get =>
    Manifest.mk <$> required (list readPermission) (get "required_permissions")
      <*> orElse (list readPermission) [] (get "optional_permissions")
      <*> optional text (get schemaKey) <*> optional text (get idKey)
      <*> optional text (get "title") <*> optional text (get "description")

/-- What a host offers; nothing is said about what is not given. -/
structure HostOffer where
  channels : Option (List String)
  modules : Option (List String)
  codecGroups : Option (List String)

def HostOffer.unknown : HostOffer := ⟨none, none, none⟩

/-- The items of a list that fail a test, with their indices. -/
def refused {α : Type} (test : α → Bool) (xs : List α) : List (Nat × α) :=
  ((List.range xs.length).zip xs).filter fun e => !test e.2

/-- What the host does not offer of a permission. -/
def HostOffer.issues (h : HostOffer) (path : String) (p : Permission) : List Issue :=
  let known (offer : List String) (name : String) : Bool :=
    (offer.map Text.lower).contains (Text.lower name)
  match p.capability, h.channels, h.modules, h.codecGroups with
  | .notify t, some offer, _, _ =>
    (refused (known offer) t.channels).map fun (j, c) =>
      ⟨s!"{path}.target.channels[{j}]", s!"channel '{c}' is not allowed by host"⟩
  | .module t, _, some offer, _ =>
    if known offer t.plugin then []
    else [⟨path ++ ".target.plugin", s!"unknown module '{t.plugin}' (not in host modules map)"⟩]
  | .codec u, _, _, some offer =>
    (refused offer.contains (u.groups.getD [])).map fun (j, g) =>
      ⟨s!"{path}.groups[{j}]", s!"unknown codec group '{g}'"⟩
  | _, _, _, _ => []

/-- A manifest that has nothing wrong in itself, nor asks for what the host does not offer. -/
def checkManifest (h : HostOffer) (v : Value) : Except PackageFault Manifest :=
  let fail (is : List Issue) : Except PackageFault Manifest :=
    .error (.manifest (is.map fun i => i.path ++ ": " ++ i.message))
  match v with
  | .map entries =>
    match readManifest entries with
    | .invalid is => fail is
    | .valid m =>
      match m.permissions.flatMap fun (key, i, p) => h.issues s!"$.{key}[{i}]" p with
      | [] => .ok m
      | is => fail is
  | _ => fail [⟨"$", "manifest must be an object"⟩]

def checkManifestFile (h : HostOffer) (t : FileTree) (path : Path) :
    Except PackageFault Manifest :=
  match t.readJson path with
  | .ok v => checkManifest h v
  | .error e => .error (.manifest [s!"$: cannot read manifest {path.text}: {e.message}"])

end PluginAudit.Package
