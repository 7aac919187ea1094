import PluginAudit.FileTree.Json
import PluginAudit.Table

namespace PluginAudit

/-- What is wrong with a host configuration. -/
inductive HostConfigFault where
  | unreadable (path cause : String)
  | notObject
  | globalNotObject
  | globalHasId
  | badGlobal (key : String)
  | settingsNotList
  | settingNotObject (index : Nat)
  | idMissing (index : Nat)
  | idNotName (index : Nat)
  | duplicateId (id : String)
  | badSetting (index : Nat) (key : String)
  deriving DecidableEq, Repr

def HostConfigFault.message : HostConfigFault → String
  | .unreadable path cause => s!"Cannot read host config {path}: {cause}"
  | .notObject => "Host config must be an object."
  | .globalNotObject => "'global' must be an object."
  | .globalHasId => "'global' must not contain an 'id'."
  | .badGlobal key => s!"Invalid SettingValue at global['{key}']."
  | .settingsNotList => "'settings' must be an array of Setting objects."
  | .settingNotObject i => s!"'settings[{i}]' must be an object."
  | .idMissing i => s!"'settings[{i}].id' is required."
  | .idNotName i => s!"'settings[{i}].id' must be a string or number."
  | .duplicateId id => s!"Duplicate setting id '{id}'."
  | .badSetting i key => s!"Invalid SettingValue at settings[{i}]['{key}']."

/-- What is wrong with a route file. -/
inductive RouteFault where
  | unreadable (file : String)
  | invalidJson (file cause : String)
  | noRoutes (file : String)
  /-- A route that is no route, and why. -/
  | malformed (file path cause : String)
  /-- An id that occurs twice in the file. -/
  | repeated (id file first again : String)
  /-- An id that another file, or the same, has registered. -/
  | taken (id first second : String)
  deriving DecidableEq, Repr

def RouteFault.message : RouteFault → String
  | .unreadable file => s!"Cannot read route file: {file}"
  | .invalidJson file cause => s!"Invalid JSON in route file {file}: {cause}"
  | .noRoutes file => s!"Invalid route file (missing 'routes' array): {file}"
  | .malformed file path _ => s!"Route at {file} {path} missing required 'id'/'desc'."
  | .repeated id file first again =>
    s!"Duplicate route id '{id}' within the same file.\n - First at: {file} {first}\n" ++
      s!" - Again at: {file} {again}"
  | .taken id first second =>
    s!"Duplicate route id '{id}' in {second} (first defined in {first})"

/-- What is wrong with a file that comes with a plugin. -/
inductive PackageFault where
  | hostConfig (f : HostConfigFault)
  | manifest (errors : List String)
  | route (f : RouteFault)
  deriving DecidableEq, Repr

namespace PackageFault

def code : PackageFault → String
  | .hostConfig (.duplicateId _) => "duplicate_setting_id"
  | .hostConfig _ => "host_config_invalid"
  | .manifest _ => "manifest_invalid"
  | .route (.taken ..) => "duplicate_route_id"
  | .route _ => "route_invalid"

def message : PackageFault → String
  | .hostConfig f => f.message
  | .manifest errors =>
    "Permission manifest validation failed:\n" ++
      String.intercalate "\n" (errors.map fun e => "- " ++ e)
  | .route f => f.message

/-- What else is known of the fault. -/
def extra : PackageFault → Table Value
  | .hostConfig (.duplicateId id) => [("id", .text id)]
  | .hostConfig _ => []
  | .manifest errors => [("errors", .texts errors)]
  | .route (.malformed _ _ cause) => [("message", .text cause)]
  | .route (.repeated id ..) => [("id", .text id)]
  | .route (.taken id first second) =>
    [("id", .text id), ("first", .text first), ("second", .text second)]
  | .route _ => []

end PackageFault

end PluginAudit
