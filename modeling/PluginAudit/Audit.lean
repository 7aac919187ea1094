import PluginAudit.Catalog.Report
import PluginAudit.Discovery
import PluginAudit.Lines
import PluginAudit.Package.Dependencies
import PluginAudit.Package.HostConfig
import PluginAudit.Package.Permissions.Reader
import PluginAudit.Package.PluginConfig
import PluginAudit.Package.Routes
import PluginAudit.Php.Detect
import PluginAudit.Php.Tokens
import PluginAudit.Pipeline
import PluginAudit.Validator

namespace PluginAudit

/-- What is told during an audit: an event, or a violation. -/
inductive Note where
  | event (e : Event)
  | violation (v : Violation)

/-- All that is told during an audit, in order. -/
abbrev Trace := List Note

/-- Whoever is told about an audit: what it was told before and what it is told now decide whether it
fails. -/
abbrev Sink := Array Note → Note → Option Fault

def Sink.silent : Sink :=
  fun _ _ => none

/-- How far an audit has come: what was found, and all that was told. -/
structure Progress where
  log : Array Violation
  told : Array Note

/-- A part of an audit. -/
abbrev Run := ReaderT Sink (ExceptT Fault (StateM Progress))

namespace Run

variable {α : Type}

/-- The end of a run that starts with nothing, and how far it came. -/
def exec (m : Run α) (sink : Sink) : Except Fault α × Progress :=
  ((m.run sink).run).run ⟨#[], #[]⟩

def orFault : Except Fault α → Run α
  | .ok x => pure x
  | .error f => throw f

/-- Hands a note to the sink, which may fail. -/
def hear (n : Note) : Run Unit := do
  let answer := (← read) (← get).told n
  modify fun p => { p with told := p.told.push n }
  match answer with
  | some f => throw f
  | none => pure ()

/-- Tells a note. That the sink fails is no failure of the run. -/
def tell (n : Note) : Run Unit :=
  tryCatch (hear n) fun _ => pure ()

def record (v : Violation) : Run Unit := do
  modify fun p => { p with log := p.log.push v }
  tell (.violation v)

def recordAll (vs : List Violation) : Run Unit :=
  vs.forM record

/-- A part, with the number of violations that it finds. -/
def counting (m : Run α) : Run (α × Nat) := do
  let before := (← get).log.size
  let x ← m
  return (x, (← get).log.size - before)

end Run

/-- Why the check of a file of the package fails: the file is not in order, or the check itself
could not be done. -/
inductive CheckFault where
  | package (f : PackageFault)
  | failed (f : Fault)

/-- How the single parts of an audit do their work. The scans of syntax trees share the facts about
variables; a scan that fails leaves some of them behind. -/
structure Workers where
  dependencies : Path → Except Fault (List Violation)
  config : Package.ConfigSchema → Path → Except Fault Package.ConfigReport
  hostConfig : Path → Except CheckFault Unit
  manifest : Path → Except CheckFault Unit
  routes : Package.RouteRegistry → Path → Package.RouteRegistry × Except CheckFault Unit
  discover : Path → Except Fault (List Candidate × List Event)
  parse : Path → Except Fault Php.Script
  content : Php.Script → Except Fault (List Violation)
  tokens : Php.Script → Except Fault (List Violation)
  syntaxTree : Php.CallGraph → Candidate → Php.Script →
    Except Fault (Php.Facts → List Violation × Php.Facts)
  leftover : Php.Script → Php.Facts → Php.Facts := fun _ facts => facts

/-- What an audit goes by. -/
structure Audit where
  policy : Policy
  pipeline : Pipeline
  webContext : Bool
  maxDepth : Int
  ignored : List Validator

/-- The outcome of an audit. -/
structure Summary where
  filesScanned : Nat
  verdict : Verdict
  reports : List Report
  /-- All violations, in the order in which they were found. -/
  log : List Violation
  trace : Trace

namespace Audit

/-- The workers that check the files of a tree. A fault of reading that a check does not reckon with
is a failure of the check. -/
def workers (a : Audit) (t : FileTree) : Workers where
  dependencies path :=
    (t.unforeseen? path).elim (.ok (Package.scanDependencies a.policy t path)) .error
  config schema root := schema.check t root
  hostConfig path :=
    (t.unforeseen? path).elim
      ((Package.checkHostConfigFile t path).mapError fun f => .package (.hostConfig f))
      fun f => .error (.failed f)
  manifest path :=
    (t.unforeseen? path).elim
      (((Package.checkManifestFile ⟨none, none, none⟩ t path).mapError .package).map fun _ => ())
      fun f => .error (.failed f)
  routes registry path :=
    (t.unforeseen? path).elim
      (let (registry, r) := Package.checkRouteFile t registry path
      (registry, (r.mapError fun f => .package (.route f)).map fun _ => ()))
      fun f => (registry, .error (.failed f))
  discover root := Discovery.search a.policy.limits a.webContext t root
  parse path := (t.read path).map (Php.Script.ofBytes path.text)
  content s :=
    .ok (Lines.scan (.ofPolicy a.policy none) s.path (Text.decodeIgnoring s.source.bytes))
  tokens s := .ok (s.scanTokens (Php.unwantedFunctions a.policy a.pipeline.tokens))
  syntaxTree graph c s :=
    .ok (Php.scanSharing a.policy graph s (some c.extension) (some c.size))

def isOn (a : Audit) (v : Validator) : Bool :=
  !a.ignored.contains v

/-- A violation about a file as a whole. -/
def fileViolation (type file issue : String) (data : Table Value) : Violation where
  type := type
  severity := .high
  file := file
  line := 0
  snippet := ""
  issue := issue
  data := data

/-- The violation that stands for a check that could not be done. -/
def failure (type file : String) (f : Fault) : Violation :=
  fileViolation type file f.issue [("error", .text f.label)]

/-- The name of a value's type. -/
def typeName : Value → String
  | .null => "NoneType"
  | .bool _ => "bool"
  | .int _ => "int"
  | .float _ => "float"
  | .text _ => "str"
  | .list _ => "list"
  | .map _ => "dict"

/-- A configured path, seen from the root directory. -/
def pathFrom (root : Path) : Value → Except Fault Path
  | .text s => .ok (root.join (Path.ofText s))
  | v => .error (.notPath (typeName v))

/-- The directory that is audited, which must be one. -/
def rootOf (via : Access) (given : String) : Except Fault Path := do
  match ← via.directory? given with
  | some root => return root
  | none => .error (.config (.badRoot given))

/-- The schema of the plugin's configuration, if there is one and it is asked for. -/
def schemaOf (a : Audit) (via : Access) (root : Path) :
    Except Fault (Option Package.ConfigSchema) := do
  let given := a.pipeline.package.schema
  if !given.isTruthy || !a.isOn .config then return none
  let path ← pathFrom root given
  if !(← via.isFile path) then .error (.config (.missingSchema path.text))
  return some (← Package.ConfigSchema.loadVia via path)

/-- The violations that a worker finds, or the one that stands for its failure. -/
def found (type file : String) (r : Except Fault (List Violation)) : List Violation :=
  match r with
  | .ok vs => vs
  | .error f => [failure type file f]

/-- The violation for a file of the package that is not in order. -/
def checked (type file : String) (r : Except CheckFault Unit) : List Violation :=
  match r with
  | .ok () => []
  | .error (.package f) =>
    [fileViolation type file f.message
      (f.extra.foldl (fun t e => t.put e.1 e.2) [("code", .text f.code)])]
  | .error (.failed f) => [failure type file f]

/-- How the host configuration is called in violations. -/
def hostConfigFile : String := "[host-config]"

def dependencyRows (w : Workers) (file : Path) : List Violation :=
  found "composer.exception" file.text
    ((w.dependencies file).map fun vs => vs.map fun v => { v with type := "composer." ++ v.type })

def configRows (w : Workers) (root : Path) (schema : Package.ConfigSchema) : List Violation :=
  let file := (root.child Package.configFileName).text
  match w.config schema root with
  | .error f => [failure "config.exception" file f]
  | .ok report =>
    match report.error? with
    | none => []
    | some error =>
      let details := if report.details.isEmpty then [[]] else report.details
      details.map fun detail => fileViolation "config.schema" file error detail

def hostConfigRows (w : Workers) (root : Path) (given : Value) : List Violation :=
  checked "hostconfig.error" hostConfigFile
    (match pathFrom root given with
      | .ok path => w.hostConfig path
      | .error f => .error (.failed f))

/-- The route files one after the other, with one registry. -/
def routeRows (w : Workers) (root : Path) (registry : Package.RouteRegistry) :
    List String → List Violation
  | [] => []
  | file :: rest =>
    let path := root.join (Path.ofText file)
    let (registry, r) := w.routes registry path
    checked "route.invalid" path.text r ++ routeRows w root registry rest

/-- Whether a check of the package is asked for. -/
def wants (a : Audit) (schema : Option Package.ConfigSchema) : PackageCheck → Bool
  | .dependencies => a.isOn .composer
  | .config => schema.isSome
  | .hostConfig => a.pipeline.package.hostConfig.isTruthy && a.isOn .hostConfig
  | .manifest => a.pipeline.package.manifest.isTruthy && a.isOn .permissionManifest
  | .routes => !a.pipeline.package.routes.isEmpty && a.isOn .route

/-- What a check of the package finds. -/
def packageRows (a : Audit) (w : Workers) (root : Path) (schema : Option Package.ConfigSchema) :
    PackageCheck → Except Fault (List Violation)
  | .dependencies => (pathFrom root a.pipeline.package.composer).map (dependencyRows w)
  | .config => .ok ((schema.map (configRows w root)).getD [])
  | .hostConfig => .ok (hostConfigRows w root a.pipeline.package.hostConfig)
  | .manifest => (pathFrom root a.pipeline.package.manifest).map fun path =>
      checked "manifest.invalid" path.text (w.manifest path)
  | .routes => .ok (routeRows w root [] a.pipeline.package.routes)

open Run

def checkPackageFile (a : Audit) (w : Workers) (root : Path)
    (schema : Option Package.ConfigSchema) (check : PackageCheck) : Run Unit := do
  if a.wants schema check then
    tell (.event (.packageCheck check))
    recordAll (← orFault (a.packageRows w root schema check))

/-- The checks of the files that come with the plugin. -/
def checkPackage (a : Audit) (w : Workers) (root : Path)
    (schema : Option Package.ConfigSchema) : Run Unit := do
  tell (.event .packageChecks)
  PackageCheck.all.forM (a.checkPackageFile w root schema)

/-- A file that is to be scanned, with its script unless it cannot be read. -/
structure ScannedFile where
  candidate : Candidate
  script : Except Fault Php.Script

/-- The violation for a file that cannot be read or parsed. -/
def ScannedFile.unparsed? (f : ScannedFile) : Option Violation :=
  match f.script with
  | .ok _ => none
  | .error e => some <|
    if e.isFile then fileViolation "read_error" f.candidate.path.text "Unable to read file" []
    else failure "parse_error" f.candidate.path.text e

/-- Parses the files one after the other. -/
def parseAll (w : Workers) : List Candidate → Run (List ScannedFile)
  | [] => pure []
  | c :: rest => do
    let f : ScannedFile := ⟨c, w.parse c.path⟩
    recordAll f.unparsed?.toList
    return f :: (← parseAll w rest)

def contentRows (a : Audit) (w : Workers) (c : Candidate) (s : Php.Script) : List Violation :=
  if a.isOn .content then found "content.exception" c.path.text (w.content s) else []

def tokenRows (a : Audit) (w : Workers) (c : Candidate) (s : Php.Script) : List Violation :=
  if a.isOn .token then found "token.exception" c.path.text (w.tokens s) else []

/-- The scan of the syntax tree of a file. What is left of the facts goes to the next. -/
def scanTree (a : Audit) (w : Workers) (graph : Php.CallGraph) (facts : Php.Facts) (c : Candidate)
    (s : Php.Script) : Run Php.Facts :=
  if a.isOn .syntaxTree then do
    tell (.event (.syntaxScan c.path.text))
    match w.syntaxTree graph c s with
    | .ok scan =>
      recordAll (scan facts).1
      return (scan facts).2
    | .error f =>
      record (failure "ast.exception" c.path.text f)
      return w.leftover s facts
  else return facts

/-- The scanners of one file, one after the other. -/
def runScanners (a : Audit) (w : Workers) (graph : Php.CallGraph) (facts : Php.Facts)
    (c : Candidate) (s : Php.Script) : Run Php.Facts := do
  tell (.event (.fileStarted c.path.text))
  recordAll (a.contentRows w c s)
  recordAll (a.tokenRows w c s)
  a.scanTree w graph facts c s

/-- Tells how much was found in a file. -/
def closeFile (c : Candidate) (counted : Php.Facts × Nat) : Run Php.Facts := do
  tell (.event (.fileDone c.path.text counted.2))
  return counted.1

def scanFile (a : Audit) (w : Workers) (graph : Php.CallGraph) (facts : Php.Facts) (c : Candidate)
    (s : Php.Script) : Run Php.Facts := do
  let counted ← counting (a.runScanners w graph facts c s)
  closeFile c counted

/-- The flags of each file, and its scan if it could be parsed. -/
def scanEach (a : Audit) (w : Workers) (graph : Php.CallGraph) :
    Php.Facts → List ScannedFile → Run Unit
  | _, [] => pure ()
  | facts, f :: rest => do
    recordAll (f.candidate.flagViolations a.policy.limits)
    match f.script with
    | .error _ => scanEach a w graph facts rest
    | .ok s =>
      let facts ← a.scanFile w graph facts f.candidate s
      scanEach a w graph facts rest

def scripts (files : List ScannedFile) : List Php.Script :=
  files.filterMap fun f => f.script.toOption

/-- The call graph of all files that could be parsed. -/
def graphOf (a : Audit) (files : List ScannedFile) : Php.CallGraph :=
  .ofScripts a.policy a.maxDepth (scripts files)

/-- The scan of all files: every script is known before the first is scanned. Gives the number of
files that could be parsed. -/
def scanAll (a : Audit) (w : Workers) (files : List ScannedFile) : Run Nat := do
  a.scanEach w (a.graphOf files) .empty files
  return (scripts files).length

/-- The search for files and their scan. -/
def scanFiles (a : Audit) (w : Workers) (root : Path) : Run Nat := do
  tell (.event (.scanStarted root.text))
  if !a.isOn .fileScanner then return 0
  match w.discover root with
  | .error f =>
    record (failure "scanner.exception" root.text f)
    return 0
  | .ok (candidates, events) =>
    events.forM fun e => tell (.event e)
    let files ← parseAll w candidates
    a.scanAll w files

/-- The verdict on what was found, and the reports. -/
def finish (a : Audit) (root : Path) (files : Nat) : Run Summary := do
  let log := (← get).log.toList
  let verdict := a.pipeline.failPolicy.evaluate root.text log
  let reports ← orFault (log.mapM Report.ofViolation)
  tell (.event (.finished verdict.reason files log.length verdict.shouldFail))
  return ⟨files, verdict, reports, log, (← get).told.toList⟩

/-- All checks of a directory. Gives the number of files that could be parsed. -/
def checkAll (a : Audit) (w : Workers) (root : Path) (schema : Option Package.ConfigSchema) :
    Run Nat := do
  tell (.event (.started root.text))
  a.checkPackage w root schema
  a.scanFiles w root

/-- The whole audit of a directory. -/
def auditAll (a : Audit) (w : Workers) (via : Access) (given : String) : Run Summary := do
  let root ← orFault (rootOf via given)
  let schema ← orFault (a.schemaOf via root)
  let files ← a.checkAll w root schema
  a.finish root files

/-- Only the scan of the files. -/
def auditFiles (a : Audit) (w : Workers) (via : Access) (given : String) : Run Summary := do
  let root ← orFault (rootOf via given)
  let files ← a.scanFiles w root
  a.finish root files

def runWith (a : Audit) (w : Workers) (via : Access) (given : String)
    (sink : Sink := Sink.silent) : Except Fault Summary :=
  ((a.auditAll w via given).exec sink).1

def runFilesWith (a : Audit) (w : Workers) (via : Access) (given : String)
    (sink : Sink := Sink.silent) : Except Fault Summary :=
  ((a.auditFiles w via given).exec sink).1

def run (a : Audit) (t : FileTree) (given : String) (sink : Sink) : Except Fault Summary :=
  a.runWith (a.workers t) t given sink

def runFiles (a : Audit) (t : FileTree) (given : String) (sink : Sink) : Except Fault Summary :=
  a.runFilesWith (a.workers t) t given sink

end Audit

end PluginAudit
