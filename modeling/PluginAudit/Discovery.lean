import PluginAudit.Event
import PluginAudit.FileTree.Walk
import PluginAudit.Policy
import PluginAudit.Text.Directional
import PluginAudit.Text.Glob

namespace PluginAudit

/-- What is suspicious about a file at first sight, in the order of reports. -/
inductive FileFlag where
  | payloadInNonPhp
  | doubleExtension
  | directionalName
  deriving DecidableEq, Repr

namespace FileFlag

def label : FileFlag → String
  | .payloadInNonPhp => "php_payload_in_non_php"
  | .doubleExtension => "suspicious_double_extension"
  | .directionalName => "suspicious_filename_unicode"

def severity : FileFlag → Severity
  | .payloadInNonPhp => .high
  | .doubleExtension | .directionalName => .medium

def hint : FileFlag → String
  | .payloadInNonPhp => "PHP payload found in a non-PHP file"
  | .doubleExtension => "Double-extension pattern detected (e.g., *.jpg.php or *.php.txt)"
  | .directionalName =>
    "Filename contains bidi control characters (possible extension spoofing)"

end FileFlag

/-- A file that is to be scanned. -/
structure Candidate where
  path : Path
  extension : String
  size : Nat
  flags : List FileFlag
  hasPayload : Bool
  deriving DecidableEq, Repr

namespace Discovery

/-- The least number of bytes that are searched for a payload in web context. -/
def leastWebWindow : Nat := 4096

/-- The number of bytes that are searched for a payload otherwise. -/
def batchWindow : Nat := 65536

/-- How much of a file is searched for a payload. -/
def window (limits : ScanLimits) (web : Bool) : Nat :=
  if web then max leastWebWindow limits.maxWebFileBytes.toNat else batchWindow

/-- The largest number of bytes that one read can ask for. -/
def maxRead : Nat := 0x7fffffffffffffff - 33

/-- Whether some bytes occur in others. -/
def occurs (mark : List UInt8) : List UInt8 → Bool
  | [] => mark.isEmpty
  | b :: rest => mark.isPrefixOf (b :: rest) || occurs mark rest

def bytesOf (s : String) : List UInt8 :=
  s.toUTF8.toList

def lowerByte (b : UInt8) : UInt8 :=
  if 65 ≤ b && b ≤ 90 then b + 32 else b

def isBlankByte (b : UInt8) : Bool :=
  b == 32 || (9 ≤ b && b ≤ 13)

/-- First lines that make a file a script. -/
def shebangs : List String := ["#!/usr/bin/php", "#!/usr/bin/env php"]

/-- Whether PHP code begins in some bytes. A short tag counts only if asked for, and not in XML. -/
def hasPayload (shortTags : Bool) (head : List UInt8) : Bool :=
  let lowered := head.map lowerByte
  occurs (bytesOf "<?php") lowered || occurs (bytesOf "<?=") head ||
    (shebangs.any fun s => (bytesOf s).isPrefixOf head) ||
    (shortTags && occurs (bytesOf "<?") head &&
      !(bytesOf "<?xml").isPrefixOf (lowered.dropWhile isBlankByte))

/-- Whether a file carries a payload in the part that is searched. -/
def sniff (limits : ScanLimits) (web : Bool) (f : FoundFile) : Bool :=
  hasPayload limits.shortOpenTags (f.content.extract 0 (window limits web)).toList

/-- The path of a file below a directory. -/
def pathOf (root : Path) (f : FoundFile) : Path :=
  ⟨root.slashes, root.parts ++ f.parts⟩

/-- Whether an ignore pattern, without its mark of negation, matches a path of a file. -/
def matchesPath (root : Path) (f : FoundFile) (glob : String) : Bool :=
  let g := Text.Glob.ofText glob
  g.matchesText f.relative || g.matchesText (pathOf root f).text

/-- Whether a file is ignored after one more pattern. One with an exclamation mark takes it back
in. -/
def afterPattern (root : Path) (f : FoundFile) (ignored : Bool) (pattern : String) : Bool :=
  match Text.afterHead? pattern "!" with
  | some glob => if matchesPath root f glob then false else ignored
  | none => if matchesPath root f pattern then true else ignored

/-- The last pattern that matches decides. -/
def isIgnored (limits : ScanLimits) (root : Path) (f : FoundFile) : Bool :=
  limits.ignore.foldl (afterPattern root f) false

/-- Whether one of the last two of at least three dot parts is a PHP extension. -/
def hasDoubleExtension (limits : ScanLimits) (name : String) : Bool :=
  let parts := Text.splitBy (· == '.') (Text.lower name)
  3 ≤ parts.length && (parts.reverse.take 2).any limits.phpExtensions.contains

/-- The cap that a file exceeds in web context. A cap counts only if it is positive. -/
def overSize? (limits : ScanLimits) (extension : String) (size : Nat) : Option IgnoreReason :=
  let exceeded := fun (cap : Int) => 0 < cap && cap < size
  match (limits.scanSize.find? extension).filter exceeded with
  | some cap => some (.scanSize cap size)
  | none =>
    if exceeded limits.maxWebFileBytes then some (.webSize limits.maxWebFileBytes size) else none

def extensionOf (f : FoundFile) : String :=
  Path.extension Text.lower f.name

def hasPhpExtension (limits : ScanLimits) (f : FoundFile) : Bool :=
  limits.phpExtensions.contains (extensionOf f)

/-- Whether a file is searched for a payload. A script is not, unless it is ignored. -/
def isSniffed (limits : ScanLimits) (root : Path) (f : FoundFile) : Bool :=
  !hasPhpExtension limits f || isIgnored limits root f

/-- Whether a payload is found in a file that is searched for one. -/
def foundPayload (limits : ScanLimits) (web : Bool) (root : Path) (f : FoundFile) : Bool :=
  isSniffed limits root f && sniff limits web f

/-- What is known of a file that is to be scanned. -/
def candidate (limits : ScanLimits) (web : Bool) (root : Path) (f : FoundFile) : Candidate :=
  let isPhp := hasPhpExtension limits f
  let payload := foundPayload limits web root f
  { path := pathOf root f
    extension := extensionOf f
    size := f.content.size
    flags :=
      (if payload && !isPhp then [.payloadInNonPhp] else []) ++
      (if hasDoubleExtension limits f.name then [.doubleExtension] else []) ++
      (if Text.hasDirectional f.name then [.directionalName] else [])
    hasPayload := payload || isPhp }

/-- What becomes of a file. -/
inductive Decision where
  | skipped
  | ignored (why : IgnoreReason)
  | chosen (c : Candidate)

/-- Decides on a file below `root`. -/
def inspect (limits : ScanLimits) (web : Bool) (root : Path) (f : FoundFile) : Decision :=
  let payload := foundPayload limits web root f
  if isIgnored limits root f && !(payload && !limits.strictIgnoreBlocksPayload) then
    .ignored .pattern
  else if !(hasPhpExtension limits f || hasDoubleExtension limits f.name || payload ||
      limits.includeNonPhp) then .skipped
  else match if web then overSize? limits (extensionOf f) f.content.size else none with
    | some why => .ignored why
    | none => .chosen (candidate limits web root f)

def Decision.candidate? : Decision → Option Candidate
  | .chosen c => some c
  | _ => none

def Decision.event? (root : Path) (f : FoundFile) : Decision → Option Event
  | .ignored why => some (.fileIgnored (pathOf root f).text why)
  | _ => none

/-- The files that are to be scanned, in the order of the walk, and what is told about those left
out and their number. -/
def discover (limits : ScanLimits) (web : Bool) (t : FileTree) (root : Path) :
    List Candidate × List Event :=
  let root := t.resolve root
  let decided := (t.walk root).map fun f => (f, inspect limits web root f)
  let candidates := decided.filterMap fun e => e.2.candidate?
  (candidates,
    (decided.filterMap fun e => e.2.event? root e.1) ++ [.filesFound candidates.length])

/-- The search for the files. It fails with the first file whose window is too large to be read. -/
def search (limits : ScanLimits) (web : Bool) (t : FileTree) (root : Path) :
    Except Fault (List Candidate × List Event) :=
  let size := window limits web
  let resolved := t.resolve root
  if maxRead < size && (t.walk resolved).any (isSniffed limits resolved) then
    .error (.oversizedRead size)
  else .ok (discover limits web t root)

end Discovery

/-- The flags of a file as violations, if the policy asks for them. -/
def Candidate.flagViolations (limits : ScanLimits) (c : Candidate) : List Violation :=
  if limits.emitPreFlags then
    c.flags.map fun flag =>
      { type := flag.label
        severity := flag.severity
        file := c.path.text
        line := 0
        snippet := ""
        issue := flag.hint
        data := [("token", .text c.path.name)] }
  else []

end PluginAudit
