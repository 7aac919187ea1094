import PluginAudit.Value

namespace PluginAudit.Package

/-- How uses of a permission are recorded. -/
structure Audit where
  log : Option String
  redactFields : Option (List String)
  tags : Option (List String)

structure EnvCondition where
  allow : Option (List String)
  deny : Option (List String)

/-- When a permission holds. The link to a setting is a text or a number. -/
structure Conditions where
  settingLink : Option Value
  guard : Option String
  env : Option EnvCondition

/-- What any permission may carry. -/
structure Terms where
  conditions : Option Conditions
  audit : Option Audit
  justification : Option String

structure DbTarget where
  model : Option String
  table : Option String
  columns : Option (List String)

structure DirTarget where
  baseDir : String
  paths : List String
  followSymlinks : Bool

structure NetworkTarget where
  hosts : List String
  methods : List String
  schemes : Option (List String)
  ports : Option (List Int)
  ipsAllowed : Option (List String)
  headersAllowed : Option (List String)
  paths : Option (List String)
  authViaHostSecret : Bool

structure NotifyTarget where
  channels : List String
  templates : Option (List String)
  recipients : Option (List String)

structure ModuleTarget where
  plugin : String
  apis : List String

/-- The functions of a codec: all, or those listed. -/
inductive CodecMethods where
  | all
  | listed (names : List String)
  deriving DecidableEq, Repr

/-- The functions and groups of functions a plugin wants to call, and the classes it may
unserialize. `options` without classes differ from no options. -/
structure CodecUse where
  methods : Option CodecMethods
  groups : Option (List String)
  options : Option (Option (List String))

/-- What is permitted. -/
inductive Capability where
  | db (target : DbTarget)
  | file (target : DirTarget)
  | network (target : NetworkTarget)
  | notify (target : NotifyTarget)
  | module (target : ModuleTarget)
  | codec (use : CodecUse)

structure Permission where
  terms : Terms
  capability : Capability
  actions : List String

structure Manifest where
  required : List Permission
  optional : List Permission
  schemaUri : Option String
  manifestId : Option String
  title : Option String
  description : Option String

/-- The permissions with the list and the index they stand at. -/
def Manifest.permissions (m : Manifest) : List (String × Nat × Permission) :=
  let numbered (key : String) (ps : List Permission) :=
    ((List.range ps.length).zip ps).map fun e => (key, e.1, e.2)
  numbered "required_permissions" m.required ++ numbered "optional_permissions" m.optional

def ofOption {α : Type} (f : α → Value) : Option α → Value
  | some a => f a
  | none => .null

def textsOrNull : Option (List String) → Value :=
  ofOption .texts

def Audit.toValue (a : Audit) : Value :=
  .object [("log", .ofText? a.log), ("redact_fields", textsOrNull a.redactFields),
    ("tags", textsOrNull a.tags)]

def EnvCondition.toValue (e : EnvCondition) : Value :=
  .object [("allow", textsOrNull e.allow), ("deny", textsOrNull e.deny)]

def Conditions.toValue (c : Conditions) : Value :=
  .object [("setting_link", ofOption id c.settingLink), ("guard", .ofText? c.guard),
    ("env", ofOption EnvCondition.toValue c.env)]

def Terms.fields (t : Terms) : List (String × Value) :=
  [("conditions", ofOption Conditions.toValue t.conditions),
    ("audit", ofOption Audit.toValue t.audit), ("justification", .ofText? t.justification)]

/-- The methods as they are written. -/
def CodecMethods.toValue : CodecMethods → Value
  | .all => .text "*"
  | .listed names => .texts names

/-- The name of a capability, and its fields. -/
def Capability.fields : Capability → List (String × Value)
  | .db t =>
    [("type", .text "db"), ("target", .object [("model", .ofText? t.model),
      ("table", .ofText? t.table), ("columns", textsOrNull t.columns)])]
  | .file t =>
    [("type", .text "file"), ("target", .object [("base_dir", .text t.baseDir),
      ("paths", .texts t.paths), ("follow_symlinks", .bool t.followSymlinks)])]
  | .network t =>
    [("type", .text "network"), ("target", .object [("hosts", .texts t.hosts),
      ("methods", .texts t.methods), ("schemes", textsOrNull t.schemes),
      ("ports", ofOption (fun ps => .list (ps.map .int)) t.ports),
      ("ips_allowed", textsOrNull t.ipsAllowed),
      ("headers_allowed", textsOrNull t.headersAllowed), ("paths", textsOrNull t.paths),
      ("auth_via_host_secret", .bool t.authViaHostSecret)])]
  | .notify t =>
    [("type", .text "notify"), ("target", .object [("channels", .texts t.channels),
      ("templates", textsOrNull t.templates), ("recipients", textsOrNull t.recipients)])]
  | .module t =>
    [("type", .text "module"), ("target", .object [("plugin", .text t.plugin),
      ("apis", .texts t.apis)])]
  | .codec u =>
    [("type", .text "codec"), ("target", .text "codec"),
      ("methods", ofOption CodecMethods.toValue u.methods), ("groups", textsOrNull u.groups),
      ("options", ofOption
        (fun o => .object [("allow_unserialize_classes", textsOrNull o)]) u.options)]

def Permission.toValue (p : Permission) : Value :=
  .object (p.terms.fields ++ p.capability.fields ++ [("actions", .texts p.actions)])

def Manifest.toValue (m : Manifest) : Value :=
  .object [("required_permissions", .list (m.required.map Permission.toValue)),
    ("optional_permissions", .list (m.optional.map Permission.toValue)),
    ("$schema", .ofText? m.schemaUri), ("$id", .ofText? m.manifestId),
    ("title", .ofText? m.title), ("description", .ofText? m.description)]

end PluginAudit.Package
