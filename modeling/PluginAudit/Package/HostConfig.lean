import PluginAudit.Package.Fault

namespace PluginAudit.Package

/-- Whether all items of a list are texts, no two of them equal. -/
def areDistinctTexts : List Value → Bool
  | [] => true
  | .text s :: rest =>
    (!rest.any fun v => match v with | .text t => t == s | _ => false) && areDistinctTexts rest
  | _ => false

/-- A boolean or null. -/
def isSwitch : Value → Bool
  | .bool _ | .null => true
  | _ => false

/-- A boolean, null, a text, a number, a list of different texts, or an object of booleans and
nulls. -/
def isSettingValue : Value → Bool
  | .bool _ | .null | .text _ | .int _ | .float _ => true
  | .list items => areDistinctTexts items
  | .map entries => entries.all fun e => isSwitch e.2

/-- The id of a setting in words: numbers as they are shown. -/
def settingId? : Value → Option String
  | .text s => some s
  | .int n => some (Value.int n).asText
  | .float x => some (Value.float x).asText
  | _ => none

/-- The global values of a configuration. -/
def checkGlobal : Option Value → Except HostConfigFault Unit
  | none => .ok ()
  | some (.map entries) =>
    if (Value.lookup "id" entries).isSome then .error .globalHasId
    else match entries.find? fun e => !isSettingValue e.2 with
      | some e => .error (.badGlobal e.1.asText)
      | none => .ok ()
  | some _ => .error .globalNotObject

/-- One setting, after those with the ids in `seen`; its own id is the result. -/
def checkSetting (seen : List String) (index : Nat) :
    Value → Except HostConfigFault String
  | .map entries =>
    match Value.lookup "id" entries with
    | none => .error (.idMissing index)
    | some id =>
      match settingId? id with
      | none => .error (.idNotName index)
      | some id =>
        if seen.contains id then .error (.duplicateId id)
        else
          match entries.find? fun e => e.1.asText != "id" && !isSettingValue e.2 with
          | some e => .error (.badSetting index e.1.asText)
          | none => .ok id
  | _ => .error (.settingNotObject index)

/-- The settings from the given index on. -/
def checkSettings (seen : List String) (index : Nat) :
    List Value → Except HostConfigFault Unit
  | [] => .ok ()
  | v :: rest => do
    let id ← checkSetting seen index v
    checkSettings (id :: seen) (index + 1) rest

/-- The first fault of a host configuration. -/
def checkHostConfig : Value → Except HostConfigFault Unit
  | .map entries => do
    checkGlobal (Value.lookup "global" entries)
    match Value.lookup "settings" entries with
    | none => .ok ()
    | some (.list settings) => checkSettings [] 0 settings
    | some _ => .error .settingsNotList
  | _ => .error .notObject

def checkHostConfigFile (t : FileTree) (path : Path) : Except HostConfigFault Unit :=
  match t.readJson path with
  | .ok v => checkHostConfig v
  | .error e => .error (.unreadable path.text e.message)

end PluginAudit.Package
