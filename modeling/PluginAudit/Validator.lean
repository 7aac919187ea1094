import PluginAudit.Fault
import PluginAudit.Table
import PluginAudit.Text.Blank
import PluginAudit.Text.Case

namespace PluginAudit

inductive Validator where
  | composer
  | config
  | hostConfig
  | permissionManifest
  | route
  | fileScanner
  | content
  | token
  | syntaxTree
  deriving DecidableEq, Repr

namespace Validator

def name : Validator → String
  | .composer => "composer"
  | .config => "config"
  | .hostConfig => "host_config"
  | .permissionManifest => "permission_manifest"
  | .route => "route"
  | .fileScanner => "file_scanner"
  | .content => "content"
  | .token => "token"
  | .syntaxTree => "ast"

/-- All validators, in the order in which they are listed. -/
def all : List Validator :=
  [.composer, .config, .hostConfig, .permissionManifest, .route, .fileScanner, .content, .token,
    .syntaxTree]

/-- The names by which a validator is asked for, besides its own. -/
def aliases : Validator → List String
  | .composer => ["composerscan"]
  | .config => ["pluginconfigvalidator"]
  | .hostConfig => ["host", "hostconfigvalidator"]
  | .permissionManifest => ["manifest", "permissionmanifestvalidator"]
  | .route => ["routes", "routefilevalidator"]
  | .fileScanner => ["filediscoveryscanner"]
  | .content => ["content_validator", "contentscanner"]
  | .token => ["token_usage", "token_analyzer", "tokenstreamanalyzer"]
  | .syntaxTree => ["ast_scanner", "syntaxtreesecurityscanner"]

/-- The validator of a name, in whatever case and with blanks around it. -/
def ofName (given : String) : Except Fault Validator :=
  let key := Text.lower (Text.strip given)
  match all.find? fun v => v.name == key || v.aliases.contains key with
  | some v => .ok v
  | none => .error (.config (.unknownValidator given (all.map name)))

/-- The validators of several names, blank ones left out. -/
def ofNames (given : List String) : Except Fault (List Validator) :=
  (given.filter fun s => Text.strip s != "").mapM ofName

end Validator

end PluginAudit
