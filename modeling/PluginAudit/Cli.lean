import PluginAudit.Audit
import PluginAudit.Cli.Arguments
import PluginAudit.Cli.Screen
import PluginAudit.Policy.Inherit
import PluginAudit.Settings

namespace PluginAudit.Cli

def programName : String := "fortiscan"

def version : String := "0.1.0"

def help : Switch := { long := "--help" }

def program : Command where
  path := programName
  operands := "[OPTIONS] COMMAND [ARGS]..."
  switches := [{ long := "--version" },
    { long := "--policy", short := some 'p', takesValue := true },
    { long := "--verbose", short := some 'v' }, help]
  mixed := false

def scanCommand : Command where
  path := s!"{programName} scan"
  operands := "[OPTIONS] DIRECTORY"
  switches := [{ long := "--config", short := some 'c', takesValue := true },
    { long := "--ignore-validator", short := some 'i', takesValue := true },
    { long := "--files-only" }, { long := "--json" }, help]
  mixed := true

def policyCommand : Command where
  path := s!"{programName} policy"
  operands := "[OPTIONS]"
  switches := [help]
  mixed := true

def catalogCommand : Command where
  path := s!"{programName} catalog"
  operands := "[OPTIONS]"
  switches := [help]
  mixed := true

def commandNames : List String := ["catalog", "policy", "scan"]

/-- The end of a command line that cannot be understood. -/
def misuse (c : Command) (f : UsageFault) : Outcome where
  exitCode := 2
  blocks := [.text c.usage, .text s!"Try '{c.path} --help' for help.",
    .text s!"Error: {f.message}"]

def helped (c : Command) : Outcome where
  exitCode := 0
  output := .text (c.usage ++ "\n")

/-- What the main program hands to its commands. -/
structure Session where
  settings : Settings
  policyRef : Option String
  verbose : Bool

/-- The end of a command that a fault stops, with what was shown before. Only faults of values and
files are told; others go further. -/
def stopped (before : List Block) (f : Fault) : Except Fault Outcome :=
  if f.isValueOrFile then do
    let error ← Block.ofMarkup s!"[red]Error:[/red] {f.issue}"
    return { exitCode := 2, blocks := before ++ [error] }
  else .error f

/-- Whether a path leads to something of the wanted sort, or what is wrong with it. -/
def pathFault? (t : FileTree) (wantsDir : Bool) (given : String) : Option String :=
  let noun := if wantsDir then "Directory" else "File"
  let shown := Text.quoted given
  let missing := some s!"{noun} {shown} does not exist."
  if given == "" then missing
  else match t.entry (Path.ofText given) with
    | .error _ => missing
    | .ok (.file _) =>
      if Text.endsWith given "/" then missing
      else if wantsDir then some s!"{noun} {shown} is a file." else none
    | .ok _ => if wantsDir then none else some s!"{noun} {shown} is a directory."

/-- A path as it is seen from the directory that is scanned. -/
def shortened (base file : String) : String :=
  match Text.afterHead? file base with
  | some rest => Text.trimLeft (· == '/') rest
  | none => file

def color : Severity → String
  | .critical => "red"
  | .high => "magenta"
  | .medium => "yellow"
  | .low => "blue"
  | .info => "white"

/-- The most severe violations come first, then they go by file and line. -/
def comesBefore (v w : Violation) : Bool :=
  if v.severity.rank != w.severity.rank then v.severity.rank < w.severity.rank
  else if v.file != w.file then decide (v.file ≤ w.file)
  else v.line ≤ w.line

/-- The number of characters of an issue that are shown. -/
def issueWidth : Nat := 60

def violationRow (base : String) (v : Violation) : List String :=
  let c := color v.severity
  [s!"[{c}]{v.severity.label}[/{c}]", shortened base v.file, toString v.line, v.type,
    Text.takeChars issueWidth v.issue]

def violationTable (base : String) (log : List Violation) : Except Fault Block :=
  if log.isEmpty then Block.ofMarkup "[green]No violations.[/green]"
  else Block.ofRows "Violations"
    [⟨"Severity", some 10⟩, ⟨"File", none⟩, ⟨"Line", none⟩, ⟨"Type", none⟩,
      ⟨"Issue", some issueWidth⟩]
    ((log.mergeSort comesBefore).map (violationRow base))

def summaryBlocks (s : Summary) : Except Fault (List Block) := do
  let verdict ←
    if s.verdict.shouldFail then Block.ofMarkup s!"\n[red]FAIL[/red] {s.verdict.reason}"
    else Block.ofMarkup "\n[green]PASS[/green]"
  return [.text s!"\nScanned {s.filesScanned} files",
    .text s!"Total violations: {s.log.length}", verdict]

def summaryValue (s : Summary) : Value :=
  .object [("files_scanned", .ofNat s.filesScanned), ("total_issues", .ofNat s.log.length),
    ("should_fail", .bool s.verdict.shouldFail), ("fail_reason", .text s.verdict.reason),
    ("violations", .list (s.log.map Violation.toValue)),
    ("formatted", .list (s.reports.map Report.toValue))]

def eventBlock (e : Event) : Except Fault Block :=
  Block.ofMarkup s!"[dim]{e.title}[/dim] {e.description}"

/-- Shows the events of a run on the way; it fails at those that cannot be shown. -/
def progressSink : Sink := fun _ n =>
  match n with
  | .event e =>
    match eventBlock e with
    | .error f => some f
    | .ok _ => none
  | .violation _ => none

/-- The events of a run that could be shown. -/
def progress (trace : Trace) : List Block :=
  trace.filterMap fun
    | .event e => (eventBlock e).toOption
    | .violation _ => none

/-- What is scanned, and by what rules. -/
structure ScanRequest where
  directory : String
  pipelinePath : Option String
  ignored : List String
  filesOnly : Bool
  asJson : Bool

namespace ScanRequest

/-- The audit that is asked for. -/
def audit (r : ScanRequest) (s : Session) (t : FileTree) : Except Fault Audit := do
  let policy ← Policy.find t s.policyRef s.settings.policyDirs
  let pipeline ←
    match r.pipelinePath with
    | some path => Pipeline.ofFile t path
    | none => .ok Pipeline.standard
  return ⟨policy, pipeline, s.settings.webContext, s.settings.maxCallDepth,
    ← Validator.ofNames r.ignored⟩

def opening (r : ScanRequest) (a : Audit) : Except Fault (List Block) :=
  if r.asJson then .ok []
  else do
    let block ← Block.ofMarkup (s!"[bold]FortiScan[/bold] scanning [cyan]{r.directory}[/cyan] " ++
      s!"with policy [cyan]{a.policy.name.asText}[/cyan]\n")
    return [block]

/-- The end of a scan that was finished. -/
def finished (r : ScanRequest) (s : Session) (t : FileTree) (before : List Block)
    (summary : Summary) : Except Fault Outcome := do
  let told := if s.verbose then progress summary.trace else []
  let exitCode := if summary.verdict.shouldFail then 1 else 0
  if r.asJson then
    return { exitCode, output := .json (summaryValue summary), blocks := before ++ told }
  else
    let base := (t.resolve (Path.ofText r.directory)).text
    let table ← violationTable base summary.log
    return { exitCode, blocks := before ++ told ++ table :: (← summaryBlocks summary) }

def run (r : ScanRequest) (s : Session) (t : FileTree) : Except Fault Outcome :=
  match r.audit s t with
  | .error f => stopped [] f
  | .ok a => do
    let before ← r.opening a
    let sink := if s.verbose then progressSink else Sink.silent
    match if r.filesOnly then a.runFiles t r.directory sink else a.run t r.directory sink with
    | .error f => stopped before f
    | .ok summary => r.finished s t before summary

end ScanRequest

/-- The scan that a command line asks for. -/
def scanRequest (t : FileTree) (p : Parsed) : Except UsageFault ScanRequest := do
  let config := p.value? "--config"
  if let some cause := config.bind (pathFault? t false) then
    throw (.badValue "'--config' / '-c'" cause)
  match p.arguments with
  | [] => throw (.missingArgument "DIRECTORY")
  | directory :: rest =>
    if let some cause := pathFault? t true directory then
      throw (.badValue "'DIRECTORY'" cause)
    if !rest.isEmpty then throw (.extraArguments rest)
    return ⟨directory, config, p.values "--ignore-validator", p.has "--files-only",
      p.has "--json"⟩

def runScan (s : Session) (t : FileTree) (args : List String) : Except Fault Outcome :=
  match scanCommand.parse {} args with
  | .error f => .ok (misuse scanCommand f)
  | .ok p =>
    if p.has help.long then .ok (helped scanCommand)
    else match scanRequest t p with
      | .error f => .ok (misuse scanCommand f)
      | .ok r => r.run s t

/-- A command without arguments of its own. -/
def runPlain (c : Command) (args : List String) (run : Unit → Except Fault Outcome) :
    Except Fault Outcome :=
  match c.parse {} args with
  | .error f => .ok (misuse c f)
  | .ok p =>
    if p.has help.long then .ok (helped c)
    else if p.arguments.isEmpty then run ()
    else .ok (misuse c (.extraArguments p.arguments))

/-- The lists of a policy under their titles. -/
def ruleSets (p : Policy) : List (String × List String) :=
  [("forbidden functions", Text.sortedSet p.forbiddenFunctions),
    ("unsupported functions", Text.sortedSet p.unsupportedFunctions),
    ("dangerous functions", Text.sortedSet p.dangerousFunctions),
    ("risky functions", Text.sortedSet p.riskyFunctions),
    ("obfuscators", Text.sortedSet p.obfuscators),
    ("callback functions", Text.sortedSet p.callbackFunctions),
    ("forbidden namespaces", p.forbiddenNamespaces),
    ("forbidden packages", Text.sortedSet p.forbiddenPackages),
    ("magic methods", Text.sortedSet p.magicMethods),
    ("stream wrappers", p.wrappers),
    ("allowed class methods", p.allowedClassMethods.map Prod.fst)]

/-- The number of entries of a list that are shown. -/
def sampleSize : Nat := 6

def ruleRow (title : String) (entries : List String) : List String :=
  let sorted := entries.mergeSort fun a b => decide (a ≤ b)
  [title, toString entries.length, Text.join ", " (sorted.take sampleSize)]

def policyBlocks (p : Policy) : Except Fault (List Block) := do
  let name ← Block.ofMarkup s!"[bold]Policy:[/bold] {p.name.asText}"
  let description ←
    if p.description.isTruthy then
      (Block.ofMarkup s!"[dim]{p.description.asText}[/dim]").map fun b => [b]
    else .ok []
  let table ← Block.ofRows "Rule sets" [⟨"List", none⟩, ⟨"Entries", none⟩, ⟨"Sample", some 60⟩]
    ((ruleSets p).map fun e => ruleRow e.1 e.2)
  let tags := if p.limits.shortOpenTags then "on" else "off"
  let limits ← Block.ofMarkup (s!"\nPHP extensions: {Text.join comma p.limits.phpExtensions}" ++
    s!"\nWeb file limit: {p.limits.maxWebFileBytes} bytes\nShort open tags: {tags}")
  return name :: description ++ [table, limits]
where
  comma : String := ", "

def runPolicy (s : Session) (t : FileTree) : Except Fault Outcome :=
  match Policy.find t s.policyRef s.settings.policyDirs with
  | .error f => stopped [] f
  | .ok p => do
    return { exitCode := 0, blocks := ← policyBlocks p }

def runCatalog : Except Fault Outcome := do
  let table ← Block.ofRows "Violation catalog"
    [⟨"Type", none⟩, ⟨"Name", none⟩, ⟨"Severity", some 10⟩, ⟨"Description", some 60⟩]
    (Catalog.listed.map fun e => [e.1, e.2.name, e.2.severity.label, e.2.description])
  return { exitCode := 0, blocks := [table] }

/-- The session that the options before a command make. -/
def session (env : Table String) (t : FileTree) (p : Parsed) : Except Fault Session := do
  let settings ← Settings.load env t
  let given := (p.value? "--policy").filter (· != "")
  return ⟨settings, given.or (settings.policyPath.map Path.text), p.has "--verbose"⟩

/-- A command by its name. -/
def dispatch (env : Table String) (t : FileTree) (p : Parsed) :
    List String → Except Fault Outcome
  | [] => .ok (misuse program .missingCommand)
  | name :: args =>
    if commandNames.contains name then do
      let s ← session env t p
      match name with
      | "scan" => runScan s t args
      | "policy" => runPlain policyCommand args fun _ => runPolicy s t
      | _ => runPlain catalogCommand args fun _ => runCatalog
    else .ok (misuse program (.noSuchCommand name (Text.closeTo name commandNames)))

/-- The program with its arguments, in an environment. -/
def run (env : Table String) (t : FileTree) (args : List String) : Except Fault Outcome :=
  if args.isEmpty then .ok { exitCode := 2, blocks := [.text program.usage] }
  else match program.parse {} args with
    | .error f => .ok (misuse program f)
    | .ok p =>
      match p.options.find? fun o => o.1 == "--version" || o.1 == help.long with
      | some ("--version", _) =>
        .ok { exitCode := 0, output := .text s!"{programName}, version {version}\n" }
      | some _ => .ok (helped program)
      | none => dispatch env t p p.arguments

end PluginAudit.Cli
