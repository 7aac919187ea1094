import PluginAudit.Php.Script
import PluginAudit.Php.Literal
import PluginAudit.Policy

namespace PluginAudit.Php

/-- A function or method, and where it is defined. -/
structure Definition where
  name : String
  node : Node
  path : String
  names : Names
  className : String
  deriving Inhabited

/-- The expressions that a body returns itself, not those of functions inside it. -/
def Definition.returns (d : Definition) : List Node :=
  match d.node.child? .body with
  | none => []
  | some body =>
    (body.scope.filter fun n => n.kind == .returnStatement).filterMap Node.returned?

/-- The form of a class name in tables. -/
def classKey (name : String) : String :=
  Text.lower (Text.trimBackslashes (Text.strip name))

/-- All definitions, parents and traits, by names in lower case. -/
structure CallGraph where
  policy : Policy
  maxDepth : Int
  functions : Table Definition
  methods : Table (Table Definition)
  parents : Table String
  traits : Table (List String)
  deriving Inhabited

namespace CallGraph

def empty (policy : Policy) (maxDepth : Int) : CallGraph :=
  ⟨policy, maxDepth, [], [], [], []⟩

def textOf (n : Option Node) : String :=
  (n.map Node.text).getD ""

/-- The name inside the namespace that holds a node. -/
def qualified (s : Script) (n : Node) (name : String) : String :=
  (s.names.regionAt n.start).qualify name

/-- The first definition of a name stays. -/
def addFunction (g : CallGraph) (s : Script) (n : Node) : CallGraph :=
  let name := textOf (n.child? .name)
  if name == "" then g
  else
    let key := Text.lower (qualified s n name)
    { g with functions := g.functions.putNew key ⟨key, n, s.path, s.names, ""⟩ }

def addMember (s : Script) (key : String) (g : CallGraph) (member : Node) : CallGraph :=
  match member.kind with
  | .methodDeclaration =>
    let method := Text.lower (textOf (member.child? .name))
    if method == "" then g
    else
      let table := (g.methods.find? key).getD []
      let d : Definition := ⟨method, member, s.path, s.names, key⟩
      { g with methods := g.methods.put key (table.putNew method d) }
  | .useDeclaration =>
    let used := (member.namedChildren.filter Node.isName).map fun n =>
      classKey (s.names.resolveClass n.text n.start)
    if used.isEmpty then g
    else { g with traits := g.traits.put key ((g.traits.find? key).getD [] ++ used) }
  | _ => g

def addParent (s : Script) (key : String) (g : CallGraph) (clause : Node) : CallGraph :=
  match clause.namedChildren.find? Node.isName with
  | some n =>
    let parent := classKey (s.names.resolveClass n.text n.start)
    { g with parents := g.parents.put key parent }
  | none => g

def addClass (g : CallGraph) (s : Script) (n : Node) : CallGraph :=
  let short := textOf (n.child? .name)
  if short == "" then g
  else
    let key := classKey (qualified s n short)
    let g := { g with methods := g.methods.putNew key [] }
    let clauses := n.children.filter fun c => c.kind == .baseClause
    let g := clauses.foldl (addParent s key) g
    match n.child? .body with
    | none => g
    | some body => body.namedChildren.foldl (addMember s key) g

def addScript (g : CallGraph) (s : Script) : CallGraph :=
  s.root.preorder.foldl (fun g n =>
    if n.kind == .functionDefinition then g.addFunction s n
    else if n.kind.isClassLike then g.addClass s n
    else g) g

def ofScripts (policy : Policy) (maxDepth : Int) (scripts : List Script) : CallGraph :=
  scripts.foldl addScript (empty policy maxDepth)

/-- The first of some names that has a definition. -/
def resolveFunction (g : CallGraph) (candidates : List String) : Option String :=
  candidates.find? g.functions.has

/-- The names of the methods that a class declares itself. -/
def declaredMethods (g : CallGraph) (className : String) : List String :=
  Table.keys ((g.methods.find? (classKey className)).getD [])

/-- Looks a method up in the classes that are still pending, in order; those of the traits and the
parent of a class are added behind. -/
def searchMethod (g : CallGraph) (method : String) (seen : List String) :
    Nat → List String → Option Definition
  | 0, _ => none
  | _, [] => none
  | fuel + 1, key :: pending =>
    if seen.contains key then g.searchMethod method seen fuel pending
    else
      match ((g.methods.find? key).getD []).find? method with
      | some d => some d
      | none =>
        let more := (g.traits.find? key).getD [] ++ (g.parents.find? key).toList
        g.searchMethod method (key :: seen) fuel (pending ++ more)

/-- One more than the number of classes that can become pending, counting repetitions. -/
def searchBound (g : CallGraph) : Nat :=
  g.traits.foldl (fun n e => n + e.2.length) (List.length g.parents + 2)

/-- A method of a class, its traits or its parents. -/
def findMethod (g : CallGraph) (className method : String) : Option Definition :=
  g.searchMethod (Text.lower method) [] g.searchBound [classKey className]

/-- The class that stands before a double colon, seen from the code of a class. -/
def scopeClass (g : CallGraph) (scope : Option Node) (currentClass : String) (names : Names) :
    String :=
  match scope with
  | none => ""
  | some n =>
    let label := Text.lower (Text.strip n.text)
    if label == "self" || label == "static" then currentClass
    else if label == "parent" then (g.parents.find? currentClass).getD ""
    else if n.isName then classKey (names.resolveClass n.text n.start)
    else ""

/-- A function or a method that can be followed. -/
inductive Target where
  | function (name : String)
  | method (className name : String)
  deriving DecidableEq, Repr

def Target.key : Target → String
  | .function name => Text.lower (Text.trimLeft (· == '\\') (Text.strip name))
  | .method className name => classKey className ++ "::" ++ Text.lower name

def definition? (g : CallGraph) (t : Target) : Option Definition :=
  match t with
  | .function _ => g.functions.find? t.key
  | .method className name => g.findMethod className name

/-- What a returned expression amounts to. -/
inductive Outcome where
  | forbidden
  | harmless
  | follow (t : Target)

def Outcome.ofBool (b : Bool) : Outcome :=
  if b then .forbidden else .harmless

/-- Classifies an expression that a definition returns. -/
def outcome (g : CallGraph) (d : Definition) (expr : Node) : Outcome :=
  let expr := expr.unwrap
  match expr.literal? with
  | some s => .ofBool (g.policy.isForbiddenName s)
  | none =>
    match expr.kind with
    | .objectCreationExpression =>
      match expr.createdClass? with
      | some cls =>
        .ofBool (cls.isName && g.policy.isForbiddenClass (d.names.resolveClass cls.text cls.start))
      | none => .harmless
    | .functionCallExpression =>
      match expr.callee? with
      | none => .harmless
      | some fn =>
        if !fn.isName then .harmless
        else if g.policy.isForbiddenName (d.names.globalFunction fn.text fn.start) then .forbidden
        else match g.resolveFunction (d.names.functionCandidates fn.text fn.start) with
          | some target => .follow (.function target)
          | none => .harmless
    | .memberCallExpression =>
      match (expr.child? .object).bind Node.plainVariable?, expr.child? .name with
      | some "this", some method =>
        if method.kind == .name && d.className != "" then
          .follow (.method d.className method.text)
        else .harmless
      | _, _ => .harmless
    | .scopedCallExpression =>
      let target := g.scopeClass (expr.child? .scope) d.className d.names
      match expr.child? .name with
      | some method =>
        if target != "" && method.kind == .name then .follow (.method target method.text)
        else .harmless
      | none => .harmless
    | _ => .harmless

/-- Whether a call of the target returns something forbidden, through at most the given number of
definitions, none of them twice. -/
def reaches (g : CallGraph) : Nat → List String → Target → Bool
  | 0, _, _ => false
  | steps + 1, visited, t =>
    if visited.contains t.key then false
    else match g.definition? t with
      | none => false
      | some d =>
        d.returns.any fun e =>
          match g.outcome d e with
          | .forbidden => true
          | .harmless => false
          | .follow next => g.reaches steps (t.key :: visited) next

/-- Whether a call of the target returns something forbidden, directly or through a chain of calls
no deeper than the limit. -/
def chainsToForbidden (g : CallGraph) (t : Target) : Bool :=
  g.reaches (g.maxDepth + 1).toNat [] t

/-- The names of nested calls, each the first argument of the one before, outermost first. -/
def callChain : Nat → Node → List String
  | 0, _ => []
  | depth + 1, n =>
    let n := n.unwrap
    if n.kind != .functionCallExpression then []
    else match n.callee? with
      | none => []
      | some fn =>
        if !fn.isName then []
        else
          let name := Text.lower (Text.trimLeft (· == '\\') fn.text)
          match n.firstArgument? with
          | some a => name :: callChain depth a
          | none => [name]

/-- How many nested calls are looked at. -/
def callChainDepth : Nat := 6

end CallGraph

end PluginAudit.Php
