import PluginAudit.FileTree.Path
import PluginAudit.Fault

namespace PluginAudit

/-- A file, a directory, or a link to another path. -/
inductive Entry where
  | file (content : ByteArray)
  | dir (entries : List (String × Entry))
  | link (target : String)
  deriving Inhabited

/-- The file system as a program sees it: all entries below the root, and the working directory. -/
structure FileTree where
  root : Entry
  cwd : Path
  deriving Inhabited

namespace Entry

def child? (e : Entry) (name : String) : Option Entry :=
  match e with
  | .dir entries => (entries.find? fun x => x.1 == name).map Prod.snd
  | _ => none

/-- Puts an entry below a directory, making the directories on the way. -/
def insert (new : Entry) : List String → Entry → Entry
  | [], _ => new
  | part :: rest, .dir entries =>
    let old := ((entries.find? fun x => x.1 == part).map Prod.snd).getD (.dir [])
    let changed := insert new rest old
    if entries.any fun x => x.1 == part then
      .dir (entries.map fun x => if x.1 == part then (part, changed) else x)
    else .dir (entries ++ [(part, changed)])
  | part :: rest, _ => .dir [(part, insert new rest (.dir []))]

end Entry

namespace FileTree

/-- The number of links that are followed on the way to one file. -/
def maxLinks : Nat := 40

/-- Follows a path from the directory at the head of `here`, over the directories above it. Links
are followed, up to the number given. -/
def follow (root : Entry) (links : Nat) (here : List Entry) (parts : List String) :
    Except FileFault Entry :=
  let at_ := here.headD root
  match parts with
  | [] => .ok at_
  | ".." :: rest => follow root links here.tail rest
  | part :: rest =>
    match at_ with
    | .dir _ =>
      match at_.child? part with
      | none => .error .missing
      | some (.link target) =>
        match links with
        | 0 => .error .linkLoop
        | left + 1 =>
          let p := Path.ofText target
          follow root left (if p.isAbsolute then [] else here) (p.parts ++ rest)
      | some e => follow root links (e :: here) rest
    | _ => .error .notDirectory
termination_by (links, parts.length)

/-- A path seen from the working directory. -/
def absolute (t : FileTree) (p : Path) : Path :=
  t.cwd.join p

/-- What a path leads to, links followed. -/
def entry (t : FileTree) (p : Path) : Except FileFault Entry :=
  follow t.root maxLinks [] (t.absolute p).parts

/-- The entry under real directories, without following it if it is a link. -/
def plainEntry? (root : Entry) (parts : List String) : Option Entry :=
  parts.foldl (fun e part => e.bind (·.child? part)) (some root)

/-- The path without links and double dots; parts that lead nowhere are kept. -/
def realParts (root : Entry) (links : Nat) (done : List String) (parts : List String) :
    List String :=
  match parts with
  | [] => done
  | ".." :: rest => realParts root links done.dropLast rest
  | part :: rest =>
    match plainEntry? root (done ++ [part]) with
    | some (.link target) =>
      match links with
      | 0 => realParts root 0 (done ++ [part]) rest
      | left + 1 =>
        let p := Path.ofText target
        realParts root left (if p.isAbsolute then [] else done) (p.parts ++ rest)
    | _ => realParts root links (done ++ [part]) rest
termination_by (links, parts.length)

/-- The absolute path that a path stands for. -/
def resolve (t : FileTree) (p : Path) : Path :=
  let p := t.absolute p
  ⟨p.slashes, realParts t.root maxLinks [] p.parts⟩

def isFile (t : FileTree) (p : Path) : Bool :=
  match t.entry p with
  | .ok (.file _) => true
  | _ => false

def isDir (t : FileTree) (p : Path) : Bool :=
  match t.entry p with
  | .ok (.dir _) => true
  | _ => false

def exists? (t : FileTree) (p : Path) : Bool :=
  match t.entry p with
  | .ok _ => true
  | .error _ => false

/-- The content of a file. -/
def read (t : FileTree) (p : Path) : Except Fault ByteArray :=
  match t.entry p with
  | .ok (.file content) => .ok content
  | .ok (.dir _) => .error (.file .isDirectory p.text)
  | .ok (.link _) => .error (.file .linkLoop p.text)
  | .error why => .error (.file why p.text)

/-- The text of a file, with line feeds at the ends of its lines. -/
def readText (t : FileTree) (p : Path) : Except Fault String := do
  match Text.decodeStrict (← t.read p) with
  | .ok s => return Text.withNewlines s
  | .error e => .error (.encoding e)

end FileTree

mutual

/-- The number of files below an entry. -/
def Entry.fileCount : Entry → Nat
  | .file _ => 1
  | .dir entries => Entry.fileCounts entries
  | .link _ => 0

def Entry.fileCounts : List (String × Entry) → Nat
  | [] => 0
  | (_, e) :: rest => e.fileCount + Entry.fileCounts rest

end

end PluginAudit
