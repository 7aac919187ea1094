import PluginAudit.FileTree
import PluginAudit.Text.Blank
import PluginAudit.Text.Glob
import PluginAudit.Value.Shown
import PluginAudit.Violation

namespace PluginAudit

/-- A limit, given as a number or as a switch that stands for one or zero. -/
inductive Limit where
  | count (n : Int)
  | switch (b : Bool)
  deriving DecidableEq, Repr

namespace Limit

def value : Limit → Int
  | .count n => n
  | .switch b => if b then 1 else 0

def toValue : Limit → Value
  | .count n => .int n
  | .switch b => .bool b

/-- A negative limit is none. -/
def exceededBy (l : Limit) (n : Nat) : Bool :=
  0 ≤ l.value && l.value < n

end Limit

/-- The rules of failure: types that must not occur, limits on the number of violations in all and
of each type, and shell patterns of files that must have none. -/
structure FailPolicy where
  typesBlocklist : List String
  totalLimit : Option Limit
  typeLimits : Table Int
  fileGates : List String
  deriving DecidableEq, Repr

/-- Whether a run fails, and the rule, type and file that make it fail. -/
structure Verdict where
  shouldFail : Bool
  reason : String
  type : String
  file : String
  deriving DecidableEq, Repr

def Verdict.pass : Verdict :=
  ⟨false, "", "", ""⟩

namespace FailPolicy

/-- The forms of a file's path that gates are tried on. `root` is empty if there is none. -/
def candidates (root file : String) : List String :=
  let whole := Text.replaceChar '\\' '/' file
  match if root == "" then none else Text.afterHead? file root with
  | some rest =>
    let inside := Text.replaceChar '\\' '/' (Text.trimLeft (fun c => c == '/' || c == '\\') rest)
    [whole, inside, "./" ++ inside]
  | none => [whole]

/-- The first gate that a file falls under. -/
def gateFor? (p : FailPolicy) (root file : String) : Option String :=
  if file == "" then none
  else p.fileGates.find? fun gate =>
    (candidates root file).any (Text.Glob.ofText gate).matchesText

/-- A violation of a type that must not occur. -/
def blockedType? (p : FailPolicy) (log : List Violation) : Option Verdict :=
  (log.find? fun v => p.typesBlocklist.contains v.type).map fun v =>
    ⟨true, s!"Violation type '{v.type}' is blocklisted", v.type, v.file⟩

/-- Too many violations. -/
def tooMany? (p : FailPolicy) (log : List Violation) : Option Verdict :=
  match p.totalLimit with
  | some limit =>
    if limit.exceededBy log.length then
      let shown := limit.toValue.asText
      some ⟨true, s!"{log.length} violations exceed the total limit of {shown}", "", ""⟩
    else none
  | none => none

def countOf (log : List Violation) (type : String) : Nat :=
  log.countP fun v => v.type == type

/-- Too many violations of one type. -/
def tooManyOfType? (p : FailPolicy) (log : List Violation) : Option Verdict :=
  (List.find? (fun e => (Limit.count e.2).exceededBy (countOf log e.1)) p.typeLimits).map
    fun (type, limit) =>
      let n := countOf log type
      ⟨true, s!"{n} '{type}' violations exceed the limit of {limit}", type, ""⟩

/-- A violation in a file that must have none. -/
def gated? (p : FailPolicy) (root : String) (log : List Violation) : Option Verdict :=
  log.findSome? fun v => (p.gateFor? root v.file).map fun gate =>
    ⟨true, s!"Violation in gated path '{gate}'", v.type, v.file⟩

/-- The verdict of the first rule that fails the log, in the order above. -/
def evaluate (p : FailPolicy) (root : String) (log : List Violation) : Verdict :=
  (((p.blockedType? log).or (p.tooMany? log)).or (p.tooManyOfType? log)).or (p.gated? root log)
    |>.getD .pass

/-- The verdict for the files below a directory, if one is given. -/
def evaluateIn (p : FailPolicy) (t : FileTree) (root : String) (log : List Violation) :
    Verdict :=
  p.evaluate (if root == "" then "" else (t.resolve (Path.ofText root)).text) log

end FailPolicy

end PluginAudit
