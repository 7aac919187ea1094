import PluginAudit.FileTree
import PluginAudit.Text.Case
import PluginAudit.Value.Integer
import PluginAudit.Table

namespace PluginAudit

structure Settings where
  configDir : Path
  policyDirs : List Path
  policyPath : Option Path
  webContext : Bool
  maxCallDepth : Int
  verbose : Bool
  deriving Repr

namespace Settings

/-- The words that switch something on. -/
def truthy : List String := ["1", "true", "yes", "on"]

/-- The name of the directory of this program's settings. -/
def dirName : String := "fortiscan"

/-- The variables that have a meaning here. -/
def variableNames : List String :=
  ["HOME", "XDG_CONFIG_HOME", "FORTISCAN_POLICY", "FORTISCAN_WEB_CONTEXT",
    "FORTISCAN_MAX_CALL_DEPTH"]

/-- The value of a variable; an empty one counts as unset. -/
def valueOf (env : Table String) (key : String) : Option String :=
  (env.find? key).filter (· != "")

/-- The home directory. -/
def home (env : Table String) : Path :=
  let dir := Text.trimRight (· == '/') ((env.find? "HOME").getD "")
  Path.ofText (if dir == "" then "/" else dir)

def configDirOf (env : Table String) : Path :=
  match valueOf env "XDG_CONFIG_HOME" with
  | some dir => (Path.ofText dir).child dirName
  | none => ((home env).child ".config").child dirName

/-- How many calls are followed unless the environment says otherwise. -/
def standardDepth : Int := 7

/-- The settings of an environment. Policies are looked for in a directory of the settings, if
there is one. -/
def load (env : Table String) (t : FileTree) : Except Fault Settings := do
  let web := (valueOf env "FORTISCAN_WEB_CONTEXT").any fun s =>
    truthy.contains (Text.lower (Text.strip s))
  let depth ←
    match valueOf env "FORTISCAN_MAX_CALL_DEPTH" with
    | some s => (Value.text s).toInteger
    | none => .ok standardDepth
  let dir := configDirOf env
  let policies := dir.child "policies"
  return {
    configDir := dir
    policyDirs := if t.isDir policies then [policies] else []
    policyPath := (valueOf env "FORTISCAN_POLICY").map Path.ofText
    webContext := web
    maxCallDepth := depth
    verbose := false }

end Settings

end PluginAudit
