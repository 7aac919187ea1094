import PluginAudit.Php.Detect.State

namespace PluginAudit.Php

open Detect

/-- The detectors for a kind of node, in order. -/
def detectors : Kind → List Detector
  | .functionCallExpression => callDetectors
  | .memberCallExpression | .nullsafeMemberCallExpression => [dynamicMethod, blockedMethod]
  | .scopedCallExpression => [staticReference, dynamicMethod, blockedMethod]
  | .objectCreationExpression => [instantiation]
  | .classConstantAccessExpression => [classConstant]
  | .binaryExpression => [instanceTest]
  | .simpleParameter | .propertyPromotionParameter | .variadicParameter => [parameterType]
  | .classDeclaration => [classDeclaration]
  | .useDeclaration => [traitUse]
  | .namespaceUseDeclaration => [namespaceImport]
  | .string | .encapsedString => [namespaceString]
  | .methodDeclaration => [magicMethod]
  | .includeExpression | .includeOnceExpression | .requireExpression | .requireOnceExpression =>
    [inclusion]
  | .dynamicVariableName => [variableVariable]
  | .memberAccessExpression | .nullsafeMemberAccessExpression => [dynamicProperty]
  | .scopedPropertyAccessExpression => [dynamicStaticProperty]
  | .assignmentExpression | .referenceAssignmentExpression => [assignmentLeak]
  | .functionStaticDeclaration => [staticVariable]
  | .returnStatement => [returned]
  | _ => []

/-- The violations at one node. -/
def visit (c : Context) (s : Site) : List Violation :=
  (detectors s.node.kind).flatMap fun d => d c s

/-- Visits the sites in order, each with the facts that the ones before it leave. -/
def visitAll (c : Context) (acc : List Violation) : List Site → List Violation
  | [] => acc.reverse
  | s :: rest =>
    let found := visit c s
    visitAll { c with facts := c.facts.observe c.script.names s } (found.reverse ++ acc) rest

/-- A fault of the source. -/
def parseFault (s : Script) : List Violation :=
  if s.root.hasError then
    let line := s.firstErrorLine
    [{ type := "parse_error"
       severity := .high
       file := s.path
       line := line
       snippet := s.source.lineText line
       issue := "Unable to parse file"
       data := [] }]
  else []

/-- The extension of a path's last part, in lower case. -/
def extensionOf (path : String) : String :=
  let parts := (Text.splitBy (· == '/') path).filter fun p => p != "" && p != "."
  let name := parts.getLastD ""
  if name.any (· == '.') then Text.lower (Text.lastPart '.' name) else ""

/-- All violations of a script, found with facts that several scans share. The facts are cleared
before the scan and after it. -/
def scanSharing (policy : Policy) (graph : CallGraph) (s : Script) (extension : Option String)
    (size : Option Nat) (shared : Facts) : List Violation × Facts :=
  let given := extension.getD ""
  let c : Context :=
    { policy := policy
      graph := graph
      script := s
      facts := shared.reset
      extension := if given == "" then extensionOf s.path else given
      size := size.getD s.source.size }
  (parseFault s ++ tooLarge c ++ visitAll c [] (Site.root s.root).preorder, shared.reset)

/-- All violations of a script. -/
def scan (policy : Policy) (graph : CallGraph) (s : Script) (extension : Option String)
    (size : Option Nat) : List Violation :=
  (scanSharing policy graph s extension size .empty).1

/-- The violations of a script whose call graph is its own. -/
def scanAlone (policy : Policy) (maxDepth : Int) (s : Script) : List Violation :=
  scan policy (.ofScripts policy maxDepth [s]) s none none

end PluginAudit.Php
