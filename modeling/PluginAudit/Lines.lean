import PluginAudit.Lines.Imports
import PluginAudit.Policy
import PluginAudit.Violation
import PluginAudit.FileTree

namespace PluginAudit.Lines

open Text Recognizer

/-- What lines are searched for. -/
structure Searches where
  policy : Policy
  /-- Words that are reported wherever they stand, in order of preference. -/
  tokens : List String
  forbidden : List String
  unsupported : List String

/-- The searches for a policy, with its risky functions as words unless others are given. -/
def Searches.ofPolicy (p : Policy) (tokens : Option (List String)) : Searches where
  policy := p
  tokens := byLength ((tokens.map fun ts => ts.map lower).getD p.riskyFunctions)
  forbidden := byLength p.forbiddenFunctions
  unsupported := byLength p.unsupportedFunctions

/-- A line of a file. -/
structure Line where
  file : String
  number : Nat
  text : String

def Line.violation (l : Line) (type : String) (severity : Severity) (issue : String)
    (data : Table Value) : Violation where
  type := type
  severity := severity
  file := l.file
  line := l.number
  snippet := strip l.text
  issue := issue
  data := data

/-- The violation for what a search finds, if anything. -/
def Line.report {α : Type} (l : Line) (r : Recognizer α) (f : α → Violation) : List Violation :=
  ((r.search l.text).map f).toList

/-- Words that must not be used. -/
def tokenViolations (s : Searches) (l : Line) : List Violation :=
  if s.tokens.isEmpty then []
  else
    l.report (wordOf s.tokens) (fun w =>
      l.violation "invalid_token_usage" .low s!"Usage of invalid token '{w}'"
        [("token", .text w)]) ++
    l.report (assignmentOf s.tokens ";") (fun w =>
      l.violation "invalid_token_assignment" .medium s!"Invalid token '{w}' assigned"
        [("token", .text w)]) ++
    l.report (argumentOf s.tokens) (fun w =>
      l.violation "invalid_token_function_argument" .medium
        s!"Invalid token '{w}' passed as an argument" [("token", .text w)])

/-- Uses of a listed class; `*` among the methods allows everything. -/
def classViolations (l : Line) (cls : String) (allowed : List String) : List Violation :=
  if allowed.contains "*" then []
  else
    l.report (instantiationOf cls) (fun n =>
      l.violation "blocklist_instantiation" .high s!"Instantiation: new {n}"
        [("token", .text n)]) ++
    l.report (constructorOf cls) (fun n =>
      l.violation "blocklist_constructor" .high s!"Constructor: {n}::__construct"
        [("token", .text n)]) ++
    l.report (classConstantOf cls) (fun n =>
      l.violation "blocklist_class_reference" .medium s!"Class reference: {n}::class"
        [("token", .text n)]) ++
    ((methodOf cls).searchAll l.text).filterMap fun (n, m) =>
      let key := lower m
      if key == "class" || key == "__construct" || allowed.contains key then none
      else some (l.violation "blocklist_method" .high s!"Method: {n}::{m}"
        [("token", .text n), ("method", .text m)])

/-- Forbidden namespaces: the imports of an import line, the names of any other. -/
def namespaceViolations (s : Searches) (l : Line) : List Violation :=
  if s.policy.forbiddenNamespaces.isEmpty then []
  else match importClause.atStart l.text with
    | some clause =>
      (importedNames clause).filterMap fun name =>
        (s.policy.forbiddenNamespaceFor? name).map fun ns =>
          l.violation "forbidden_namespace_import" .critical
            "Import of forbidden namespace or child" [("namespace", .text ns)]
    | none =>
      s.policy.forbiddenNamespaces.filterMap fun ns =>
        if (stringNaming ns).occurs l.text then
          some (l.violation "forbidden_namespace_string" .high
            "Forbidden namespace/class referenced as a string" [("namespace", .text ns)])
        else if (referenceTo ns).occurs l.text then
          some (l.violation "forbidden_namespace_reference" .critical
            "Reference to forbidden namespace" [("namespace", .text ns)])
        else none

/-- Calls of forbidden and of unsupported functions. -/
def functionViolations (s : Searches) (l : Line) : List Violation :=
  (if s.forbidden.isEmpty then []
    else
      l.report (callOf s.forbidden) (fun w =>
        l.violation "forbidden_function" .critical s!"Call to forbidden function {w}()"
          [("function", .text (lower w))]) ++
      l.report (assignmentOf s.forbidden "(") (fun w =>
        l.violation "forbidden_function_assignment" .high
          s!"Result of forbidden function {w}() assigned" [("function", .text (lower w))])) ++
  (if s.unsupported.isEmpty then []
    else
      l.report (callOf s.unsupported) (fun w =>
        l.violation "unsupported_function" .medium s!"Call to unsupported function {w}()"
          [("function", .text (lower w))]))

/-- The violations of one line. -/
def lineViolations (s : Searches) (l : Line) : List Violation :=
  tokenViolations s l ++
  s.policy.allowedClassMethods.flatMap (fun e => classViolations l e.1 e.2) ++
  namespaceViolations s l ++ functionViolations s l

/-- The violations of a text, line after line. -/
def scan (s : Searches) (file text : String) : List Violation :=
  let lines := linesOf (withNewlines text)
  ((List.range lines.length).zip lines).flatMap fun (i, line) =>
    if strip line == "" then [] else lineViolations s ⟨file, i + 1, line⟩

/-- The violations of a file; bytes that are no text are left out. -/
def scanFile (s : Searches) (t : FileTree) (path : Path) : List Violation :=
  match t.read path with
  | .ok bytes => scan s path.text (withNewlines (decodeIgnoring bytes))
  | .error _ =>
    [{ type := "read_error"
       severity := .high
       file := path.text
       line := 0
       snippet := ""
       issue := "Unable to read file"
       data := [] }]

end PluginAudit.Lines
