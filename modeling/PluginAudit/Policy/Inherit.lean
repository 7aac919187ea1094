import PluginAudit.Policy.Build
import PluginAudit.Policy.Presets
import PluginAudit.FileTree
import PluginAudit.Yaml.Reader

namespace PluginAudit.Policy

mutual

/-- The second mapping on top of the first: mappings are merged, lists are joined without
repetitions, all else is replaced. -/
def merge (base : List (Value × Value)) : List (Value × Value) → List (Value × Value)
  | [] => base
  | (key, value) :: rest =>
    let current := (base.find? fun e => e.1.same key).map Prod.snd
    merge (Value.insert base key (mergeValue current value)) rest

def mergeValue (current : Option Value) : Value → Value
  | .map own =>
    match current with
    | some (.map base) => .map (merge base own)
    | _ => .map own
  | .list own =>
    match current with
    | some (.list base) => .list (base ++ own.filter fun v => !base.any fun w => w.same v)
    | _ => .list own
  | v => v

end

/-- Where policies are found, and how their texts are read. The presets are files of a directory of
their own. -/
structure Sources where
  files : FileTree
  presetDir : Path
  parse : String → Except Yaml.Error Value

namespace Sources

/-- The file of a preset in a directory. -/
def presetFile (name : String) : String :=
  name ++ ".yaml"

/-- A tree of files with the presets put into it. -/
def ofTree (t : FileTree) : Sources :=
  let dir : Path := Path.ofText "/fortiscan/policy/presets"
  let own := presets.map fun e => (presetFile e.1, Entry.file ⟨#[]⟩)
  ⟨⟨Entry.insert (.dir own) dir.parts t.root, t.cwd⟩, dir, Yaml.parse⟩

instance : Coe FileTree Sources := ⟨ofTree⟩

end Sources

/-- What stands in front of the name of a preset. -/
def presetMark : String := "preset:"

/-- The mapping of a YAML text. -/
def readMapping (t : Sources) (text : String) : Except Fault (List (Value × Value)) :=
  match t.parse text with
  | .ok (.map entries) => .ok entries
  | .ok _ => .error .policyNotMapping
  | .error e => .error e.fault

def mapping? : Value → Option (List (Value × Value))
  | .map entries => some entries
  | _ => none

/-- The preset that is kept in a file. -/
def presetAt? (t : Sources) (file : Path) : Option (List (Value × Value)) :=
  presets.findSome? fun e =>
    if file == t.presetDir.child (Sources.presetFile e.1) then mapping? e.2 else none

/-- The mapping of a file, which can be that of a preset. -/
def readPath (t : Sources) (path : Path) : Except Fault (List (Value × Value)) :=
  match presetAt? t (t.files.resolve path) with
  | some entries => .ok entries
  | none => do readMapping t (← t.files.readText path)

def readFile (t : Sources) (ref : String) : Except Fault (List (Value × Value)) :=
  readPath t (Path.ofText ref)

/-- The mapping of a preset. What is no name of one is a path from their directory. -/
def readPreset (t : Sources) (name : String) : Except Fault (List (Value × Value)) :=
  match (presets.find? name).bind mapping? with
  | some entries => .ok entries
  | none =>
    let path := t.presetDir.join (Path.ofText (Sources.presetFile name))
    if t.files.isFile path then readPath t path else .error (.unknownPreset name)

/-- The mapping that a reference names, not yet resolved. -/
def readRef (t : Sources) (ref : String) : Except Fault (List (Value × Value)) :=
  match Text.afterHead? ref presetMark with
  | some name => readPreset t name
  | none => readFile t ref

/-- The name of a policy, by which circles are found. -/
def nameOf (data : List (Value × Value)) : Except Fault Value :=
  match (Value.lookup "name" data).getD (.text "unnamed") with
  | .list _ | .map _ => .error .notName
  | v => .ok v

/-- Whether two names are one. What is not a number is one name, although it does not equal
itself. -/
def isSameName (a b : Value) : Bool :=
  a.same b ||
    match a, b with
    | .float x, .float y => x.isNaN && y.isNaN
    | _, _ => false

/-- Merges what a mapping inherits underneath it. `ancestors` are the names on the way to it; each
step adds a new one, so the fuel needs to be no larger than the number of policies there are. -/
def resolve (t : Sources) : Nat → List Value → List (Value × Value) →
    Except Fault (List (Value × Value))
  | 0, _, data => do .error (.circularPolicy (← nameOf data).asText)
  | fuel + 1, ancestors, data => do
    let name ← nameOf data
    if ancestors.any fun a => isSameName a name then .error (.circularPolicy name.asText)
    else
      let refs ← textList (Value.lookup "inherit" data)
      let merged ← refs.foldlM (fun merged ref => do
        return merge merged (← resolve t fuel (name :: ancestors) (← readRef t ref))) []
      return merge merged data

/-- Enough for every chain of policies without a repeated name. -/
def resolveAll (t : Sources) (data : List (Value × Value)) :
    Except Fault (List (Value × Value)) :=
  resolve t (t.files.root.fileCount + presets.length + 2) [] data

/-- The policy of a mapping, with what it inherits. -/
def ofMapping (t : Sources) (data : List (Value × Value)) : Except Fault Policy := do
  build (← resolveAll t data)

def ofText (t : Sources) (text : String) : Except Fault Policy := do
  ofMapping t (← readMapping t text)

def ofFile (t : Sources) (ref : String) : Except Fault Policy := do
  ofMapping t (← readFile t ref)

def ofPreset (t : Sources) (name : String) : Except Fault Policy := do
  ofMapping t (← readPreset t name)

/-- The file of a policy in one of the directories, or a preset. -/
def ofName (t : Sources) (name : String) (dirs : List Path) : Except Fault Policy :=
  let candidates := dirs.map fun d => d.join (Path.ofText (name ++ ".yaml"))
  match candidates.find? t.files.isFile with
  | some p => ofFile t p.text
  | none => ofPreset t name

/-- A policy by file, by name, or by preset; no reference means the default. -/
def find (t : Sources) (ref : Option String) (dirs : List Path) : Except Fault Policy :=
  match ref with
  | none => ofPreset t "default"
  | some ref =>
    if t.files.isFile (Path.ofText ref) then ofFile t ref
    else match Text.afterHead? ref presetMark with
      | some name => ofPreset t name
      | none => ofName t ref dirs

end PluginAudit.Policy
