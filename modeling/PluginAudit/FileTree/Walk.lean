import PluginAudit.FileTree

namespace PluginAudit

/-- A file below a directory: the parts of its path from there, and its content. -/
structure FoundFile where
  parts : List String
  content : ByteArray

namespace FoundFile

def name (f : FoundFile) : String :=
  f.parts.getLastD ""

/-- A path as seen from the directory. -/
def relative (f : FoundFile) : String :=
  Text.join "/" f.parts

end FoundFile

mutual

/-- The files below an entry, not through links. -/
def Entry.filesBelow (parts : List String) : Entry → List FoundFile
  | .file content => [⟨parts, content⟩]
  | .dir entries => Entry.filesOf parts entries
  | .link _ => []

def Entry.filesOf (parts : List String) : List (String × Entry) → List FoundFile
  | [] => []
  | (name, e) :: rest => e.filesBelow (parts ++ [name]) ++ Entry.filesOf parts rest

end

/-- The files of a directory come before those of its subdirectories, and both by their names. -/
def walksBefore : List String → List String → Bool
  | [], _ => true
  | _ :: _, [] => false
  | [a], [b] => decide (a ≤ b)
  | [_], _ :: _ :: _ => true
  | _ :: _ :: _, [_] => false
  | a :: as, b :: bs => if a == b then walksBefore as bs else decide (a ≤ b)

/-- All files below a directory, each directory's own files first. -/
def FileTree.walk (t : FileTree) (root : Path) : List FoundFile :=
  match t.entry root with
  | .ok (.dir entries) =>
    (Entry.filesOf [] entries).mergeSort fun a b => walksBefore a.parts b.parts
  | _ => []

end PluginAudit
