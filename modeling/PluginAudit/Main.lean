import PluginAudit.Cli
import PluginAudit.Json.Printer

namespace PluginAudit.Main

/-- The target of a link that leads nowhere: no file has this name. -/
def nowhere : String := "\x00"

/-- An entry of the disk with all that is below it. A link is kept with the path it leads to. -/
partial def load (e : IO.FS.DirEntry) : IO Entry := do
  match (← e.path.symlinkMetadata).type with
  | .dir =>
    let below ← e.path.readDir
    return .dir (← below.toList.mapM fun b => do return (b.fileName, ← load b))
  | .symlink =>
    try return .link (← IO.FS.realPath e.path).toString
    catch _ => return .link nowhere
  | _ =>
    try return .file (← IO.FS.readBinFile e.path)
    catch _ => return .file ByteArray.empty

mutual

/-- The targets of the links below an entry. -/
def targets : Entry → List String
  | .link target => [target]
  | .dir entries => targetsOf entries
  | .file _ => []

def targetsOf : List (String × Entry) → List String
  | [] => []
  | (_, e) :: rest => targets e ++ targetsOf rest

end

/-- The part of a disk that was read, and the real paths at which it was read whole. -/
structure Disk where
  tree : FileTree
  known : List Path

namespace Disk

def knows (d : Disk) (p : Path) : Bool :=
  d.known.any fun k => k.parts.isPrefixOf p.parts

def insert (d : Disk) (p : Path) (e : Entry) : Disk :=
  { d with tree := { d.tree with root := Entry.insert e p.parts d.tree.root } }

/-- Adds what real paths lead to, and what the links below it lead to. -/
partial def gather (d : Disk) : List String → IO Disk
  | [] => return d
  | text :: rest => do
    let path := Path.ofText text
    if text == nowhere || d.knows path then d.gather rest
    else
      let dir := "/" ++ Text.join "/" path.parts.dropLast
      let e ← load { root := dir, fileName := path.name }
      gather { d.insert path e with known := path :: d.known } (targets e ++ rest)

/-- Adds a path as it was given: what it leads to, and a link to it if it is reached over links. -/
def add (d : Disk) (given : String) : IO Disk := do
  try
    let real := (← IO.FS.realPath given).toString
    let d ← d.gather [real]
    let path := d.tree.absolute (Path.ofText given)
    if d.tree.exists? path || path.parts.contains ".." then return d
    return d.insert path (.link real)
  catch _ => return d

/-- The part of the disk that a command line can be about: what its arguments, its options and the
environment name. -/
def read (env : Table String) (args : List String) : IO Disk := do
  let cwd := Path.ofText (← IO.currentDir).toString
  let values := args.filterMap fun arg => (Text.cutAt? "=" arg).map Prod.snd
  let policies := (Settings.valueOf env "FORTISCAN_POLICY").toList
  let given := (Settings.configDirOf env).text :: policies ++ args ++ values
  let d : Disk := ⟨⟨Entry.insert (.dir []) cwd.parts (.dir []), cwd⟩, []⟩
  (given.filter (· != "")).foldlM add d

end Disk

/-- The values of the variables that are set. -/
def environment : IO (Table String) :=
  Settings.variableNames.filterMapM fun key => do
    return (← IO.getEnv key).map fun s => (key, s)

def display (o : Cli.Outcome) : IO Unit := do
  for b in o.blocks do
    IO.eprintln b.render
  match o.output with
  | .text s => IO.print s
  | .json v => IO.println (Json.pretty "" v)

end PluginAudit.Main

open PluginAudit in
def main (args : List String) : IO UInt32 := do
  let env ← Main.environment
  let disk ← Main.Disk.read env args
  match Cli.run env disk.tree args with
  | .ok outcome =>
    Main.display outcome
    return UInt32.ofNat outcome.exitCode
  | .error fault =>
    IO.eprintln fault.issue
    return 1
