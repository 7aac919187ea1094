import PluginAudit.Value
import PluginAudit.Violation

namespace PluginAudit

/-- Why a file is left out. -/
inductive IgnoreReason where
  | pattern
  /-- Larger than its extension allows. -/
  | scanSize (cap : Int) (size : Nat)
  /-- Larger than any file may be. -/
  | webSize (cap : Int) (size : Nat)
  deriving DecidableEq, Repr

namespace IgnoreReason

def code : IgnoreReason → String
  | .pattern => "ignore_pattern"
  | .scanSize .. => "scan_size"
  | .webSize .. => "max_web_file_bytes"

def message : IgnoreReason → String
  | .pattern => "Matched an ignore pattern"
  | .scanSize cap _ | .webSize cap _ => s!"File exceeds the {cap} byte limit"

def size? : IgnoreReason → Option Nat
  | .pattern => none
  | .scanSize _ size | .webSize _ size => some size

end IgnoreReason

/-- The checks of the files that come with a plugin. -/
inductive PackageCheck where
  | dependencies
  | config
  | hostConfig
  | manifest
  | routes
  deriving DecidableEq, Repr

/-- The checks in the order in which they are made. -/
def PackageCheck.all : List PackageCheck :=
  [.dependencies, .config, .hostConfig, .manifest, .routes]

def PackageCheck.title : PackageCheck → String
  | .dependencies => "Headline: Composer"
  | .config => "Headline: Config"
  | .hostConfig => "Headline: HostConfig"
  | .manifest => "Headline: Permission manifest"
  | .routes => "Headline: Route file"

inductive Event where
  | started (root : String)
  | packageChecks
  | packageCheck (check : PackageCheck)
  | scanStarted (root : String)
  | fileIgnored (file : String) (why : IgnoreReason)
  | filesFound (count : Nat)
  | fileStarted (file : String)
  | syntaxScan (file : String)
  | fileDone (file : String) (issues : Nat)
  | finished (reason : String) (files issues : Nat) (failed : Bool)
  deriving DecidableEq, Repr

namespace Event

def title : Event → String
  | .started _ => "Initialize"
  | .packageChecks => "Headline"
  | .packageCheck check => check.title
  | .scanStarted _ => "Scan"
  | .fileIgnored .. => "File ignored"
  | .filesFound _ => "Scanning files"
  | .fileStarted _ | .fileDone .. => "Scan: File"
  | .syntaxScan _ => "Scan: Security"
  | .finished .. => "Finalize"

def description : Event → String
  | .started root => s!"Validating {root}"
  | .packageChecks => "Plugin-level checks"
  | .packageCheck _ | .syntaxScan _ => ""
  | .scanStarted root => s!"Scanning {root}"
  | .fileIgnored _ why => why.message
  | .filesFound count => s!"Scanning {count} file(s)"
  | .fileStarted _ => "start"
  | .fileDone .. => "end"
  | .finished reason .. => if reason == "" then "Validation complete" else reason

/-- The error of an event that tells one. -/
def error? : Event → Option Value
  | .fileIgnored _ why => some (.object [("code", .text why.code), ("message", .text why.message),
      ("extra", .object [("issue", .text why.code)])])
  | _ => none

/-- The file and the numbers of an event. -/
def stats? : Event → Option (List (String × Value))
  | .fileIgnored file why => some (("filePath", .text file) ::
      (why.size?.map fun n => ("size", Value.ofNat n)).toList)
  | .fileStarted file | .syntaxScan file => some [("filePath", .text file)]
  | .fileDone file issues => some [("filePath", .text file), ("issues", .ofNat issues)]
  | .finished _ files issues failed => some [("files", .ofNat files), ("issues", .ofNat issues),
      ("shouldFail", .bool failed)]
  | _ => none

def meta? : Event → Option (List (String × Value))
  | .filesFound count => some [("count", .ofNat count)]
  | _ => none

/-- An event as a record, without what is empty. -/
def toValue (e : Event) : Value :=
  .object ([("title", Value.text e.title)] ++
    (if e.description == "" then [] else [("description", .text e.description)]) ++
    (e.error?.map fun v => ("error", v)).toList ++
    (e.stats?.map fun es => ("stats", Value.object es)).toList ++
    (e.meta?.map fun es => ("meta", Value.object es)).toList)

end Event

end PluginAudit
