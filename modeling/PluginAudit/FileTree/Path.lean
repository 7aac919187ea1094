import PluginAudit.Text.Parts

namespace PluginAudit

/-- A path. One that starts with exactly two slashes keeps both. -/
structure Path where
  slashes : Nat
  parts : List String
  deriving DecidableEq, Repr, Inhabited

namespace Path

def ofText (s : String) : Path :=
  let lead := (s.toList.takeWhile (· == '/')).length
  let slashes := if lead == 0 then 0 else if lead == 2 then 2 else 1
  ⟨slashes, (Text.splitBy (· == '/') s).filter fun p => p != "" && p != "."⟩

def isAbsolute (p : Path) : Bool :=
  p.slashes != 0

def text (p : Path) : String :=
  let front := String.ofList (List.replicate p.slashes '/')
  if p.slashes == 0 && p.parts.isEmpty then "." else front ++ Text.join "/" p.parts

/-- The second path seen from the first; an absolute one stands for itself. -/
def join (base p : Path) : Path :=
  if p.isAbsolute then p else ⟨base.slashes, base.parts ++ p.parts⟩

/-- A path with one more part. -/
def child (p : Path) (part : String) : Path :=
  ⟨p.slashes, p.parts ++ [part]⟩

/-- The last part. -/
def name (p : Path) : String :=
  p.parts.getLastD ""

/-- The text after the last dot of a file name, in lower case by `lower`. -/
def extension (lower : String → String) (name : String) : String :=
  if name.any (· == '.') then lower (Text.lastPart '.' name) else ""

end Path

end PluginAudit
