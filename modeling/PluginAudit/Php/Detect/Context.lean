import PluginAudit.Php.Facts
import PluginAudit.Php.CallGraph
import PluginAudit.Violation

namespace PluginAudit.Php.Detect

/-- The file that is being scanned and what is known at the current node. -/
structure Context where
  policy : Policy
  graph : CallGraph
  script : Script
  facts : Facts
  extension : String
  size : Nat

/-- A detector looks at one node. -/
abbrev Detector := Context → Site → List Violation

namespace Context

/-- A violation at a node. -/
def violation (c : Context) (type : String) (severity : Severity) (n : Node) (issue : String)
    (data : Table Value) : Violation :=
  { type, severity, issue, data
    file := c.script.path
    line := n.line
    snippet := c.script.source.lineText n.line }

def resolveClass (c : Context) (n : Node) : String :=
  c.script.names.resolveClass n.text n.start

/-- A called function: the name a call falls back to, and the names it is looked up by. -/
structure Called where
  name : String
  candidates : List String

/-- The function that a call names, if it does. -/
def called? (c : Context) (call : Node) : Option Called :=
  match call.callee? with
  | none => none
  | some fn =>
    if fn.isName then
      some ⟨c.script.names.globalFunction fn.text fn.start,
        c.script.names.functionCandidates fn.text fn.start⟩
    else none

def chainsToForbidden (c : Context) (candidates : List String) : Bool :=
  match c.graph.resolveFunction candidates with
  | some target => c.graph.chainsToForbidden (.function target)
  | none => false

def methodChains (c : Context) (className method : String) : Bool :=
  c.graph.chainsToForbidden (.method className method)

/-- Why a callable name is dangerous. -/
inductive Verdict where
  | forbidden
  | unsupported
  | chain
  deriving DecidableEq, Repr

/-- The verdict on a name that is looked up by the given candidates. -/
def verdict? (c : Context) (name : String) (candidates : List String) : Option Verdict :=
  if c.policy.isForbiddenFunction name then some .forbidden
  else if c.policy.isUnsupportedFunction name then some .unsupported
  else if c.chainsToForbidden candidates then some .chain
  else none

/-- The verdict on a name that stands for itself. -/
def nameVerdict? (c : Context) (name : String) : Option Verdict :=
  c.verdict? name [Text.lower (Text.trimLeft (· == '\\') name)]

def calledVerdict? (c : Context) (f : Called) : Option Verdict :=
  c.verdict? f.name f.candidates

/-- The class whose code a node belongs to; empty if there is none. -/
def currentClass (c : Context) (s : Site) : String :=
  match s.owner with
  | none => ""
  | some cls =>
    match cls.child? .name with
    | none => ""
    | some name => classKey (CallGraph.qualified c.script cls name.text)

/-- The class of the object that a method is called on, as far as it is known. -/
def receiverClass (c : Context) (object : Option Node) (s : Site) : String :=
  match object.bind Node.plainVariable? with
  | none => ""
  | some name =>
    if name == "this" then c.currentClass s
    else match c.facts.types.find? name with
      | some t => classKey t
      | none => ""

def scopeClass (c : Context) (scope : Option Node) (s : Site) : String :=
  c.graph.scopeClass scope (c.currentClass s) c.script.names

/-- What an expression takes from a request: directly, through a variable, or inside a
concatenation. -/
def requestSource? (c : Context) (n : Node) : Option String :=
  let n := n.unwrap
  match n.superglobal? with
  | some name => some name
  | none =>
    match n.plainVariable? with
    | some name =>
      if name != "" && c.facts.isSuperglobal name then some name else described n
    | none => described n
where
  described (n : Node) : Option String :=
    match c.facts.describe n with
    | some text => if Text.contains text superglobalMark then some text else none
    | none => none

/-- The verdict on a call of any form. -/
def callVerdict? (c : Context) (s : Site) : Option Verdict :=
  let method (cls : String) : Option Verdict :=
    match s.node.child? .name with
    | some m =>
      if cls != "" && m.kind == .name && c.methodChains cls m.text then some .chain else none
    | none => none
  match s.node.kind with
  | .functionCallExpression => (c.called? s.node).bind c.calledVerdict?
  | .memberCallExpression | .nullsafeMemberCallExpression =>
    method (c.receiverClass (s.node.child? .object) s)
  | .scopedCallExpression => method (c.scopeClass (s.node.child? .scope) s)
  | _ => none

/-- Whether a dangerous call stands at or below a node. -/
def bodyIsDangerous (c : Context) (s : Site) : Bool :=
  s.preorder.any fun n => (c.callVerdict? n).isSome

def bodyOfIsDangerous (c : Context) (s : Site) : Bool :=
  match s.child? .body with
  | some b => c.bodyIsDangerous b
  | none => false

/-- Whether a value that is kept somewhere could run forbidden code. Values inside values, and those
of variables, are looked at up to the given depth. -/
def holdsDanger (c : Context) : Nat → Site → Bool
  | 0, _ => false
  | depth + 1, s =>
    let s := s.unwrap
    match s.node.literal? with
    | some text => c.policy.isForbiddenFunction text
    | none =>
      match s.node.kind with
      | .objectCreationExpression =>
        if s.node.isAnonymousCreation then c.bodyIsDangerous s
        else match s.node.createdClass? with
          | some cls => cls.isName && c.policy.isForbiddenClass (c.resolveClass cls)
          | none => false
      | .functionCallExpression =>
        match s.node.callee? with
        | some fn => if fn.isName then (c.callVerdict? s).isSome else true
        | none => false
      | .anonymousFunction | .arrowFunction => c.bodyOfIsDangerous s
      | .arrayCreationExpression =>
        s.node.namedChildren.any fun element =>
          c.holdsDanger depth (s.at_ (element.namedChildren.getLastD element))
      | _ =>
        match s.node.plainVariable?.bind c.facts.nodes.find? with
        | some held => c.holdsDanger depth held
        | none => false

/-- How deep values are looked into. -/
def valueDepth : Nat := 5

def isDangerousValue (c : Context) (s : Site) : Bool :=
  c.holdsDanger valueDepth s

end Context

end PluginAudit.Php.Detect
