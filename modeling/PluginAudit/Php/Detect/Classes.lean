import PluginAudit.Php.Detect.Calls

namespace PluginAudit.Php.Detect

open Context

def specialScopes : List String := ["self", "static", "parent"]

def reflectionRows (c : Context) (n : Node) (className kind : String) : List Violation :=
  let data : Table Value := [("class_name", .text className), ("kind", .text kind)]
  [c.violation "always_forbidden_reflection" .high n
      s!"Reflection class {className} used ({kind})" data,
    c.violation "reflection_usage" .critical n s!"Reflection API usage: {className}" data]

/-- A reference to a class by its name. -/
def classReferenceRows (c : Context) (n name : Node) (kind : String) : List Violation :=
  if specialScopes.contains (Text.lower (Text.strip name.text)) then []
  else
    let className := c.resolveClass name
    let imported :=
      match c.policy.forbiddenNamespaceFor? className with
      | some ns =>
        [c.violation "forbidden_namespace_reference" .critical n
          s!"Reference to forbidden namespace {ns} ({kind})"
          [("namespace", .text ns), ("class_name", .text className), ("kind", .text kind)]]
      | none => []
    imported ++
      if c.policy.isForbiddenReflection className then reflectionRows c n className kind else []

/-- The method that a call names by an expression. -/
def dynamicMethod (c : Context) (s : Site) : List Violation :=
  let n := s.node
  let cls :=
    if n.kind == .scopedCallExpression then c.scopeClass (n.child? .scope) s
    else c.receiverClass (n.child? .object) s
  let report (suffix : String) (severity : Severity) (issue : String) (data : Table Value) :=
    [c.violation ("backdoor_dynamic_method_call_" ++ suffix) severity n issue data]
  match n.child? .name with
  | none => []
  | some name =>
    if name.kind == .name then []
    else match name.plainVariable? with
      | none =>
        report "complex" .high "Method name computed from an expression"
          [("expression", .text name.text)]
      | some var =>
        let unresolved :=
          report "unresolved" .high s!"Method name in ${var} could not be resolved"
            [("var", .text var)]
        match c.facts.values.find? var with
        | none => unresolved
        | some value =>
          if Text.contains value superglobalMark then
            report "superglobal" .critical s!"Method name in ${var} comes from request input"
              [("var", .text var)]
          else if Text.contains value dynamicMark then unresolved
          else
            let member := Text.lower value
            let data : Table Value := [("var", .text var), ("resolved_method", .text member)]
            if c.policy.isForbiddenName member then
              report "forbidden" .critical s!"Method ${var} resolves to forbidden {member}" data
            else if cls != "" && c.methodChains cls member then
              report "chain_forbidden" .critical
                s!"Method ${var} resolves to {cls}::{member} which chains to a forbidden construct"
                (data ++ [("class_name", .text cls)])
            else []

/-- The class whose method a call names, if it is known. -/
def calledClass (c : Context) (s : Site) : String :=
  let n := s.node
  if n.kind == .scopedCallExpression then
    match n.child? .scope with
    | none => ""
    | some scope =>
      if specialScopes.contains (Text.lower (Text.strip scope.text)) then
        c.scopeClass (some scope) s
      else if scope.isName then classKey (c.resolveClass scope)
      else ""
  else c.receiverClass (n.child? .object) s

def blockedMethod (c : Context) (s : Site) : List Violation :=
  match s.node.child? .name with
  | none => []
  | some method =>
    if method.kind != .name then []
    else
      let cls := calledClass c s
      if cls == "" then []
      else match c.policy.allowedMethodsFor? cls with
        | none => []
        | some allowed =>
          if allowed.contains "*" || allowed.contains (Text.lower method.text) then []
          else [c.violation "config_blocked_method" .critical s.node
            s!"Method {cls}::{method.text} is not on the allowlist"
            [("class_name", .text cls), ("method", .text method.text)]]

def staticReference (c : Context) (s : Site) : List Violation :=
  match s.node.child? .scope with
  | some scope => if scope.isName then classReferenceRows c s.node scope "static_call" else []
  | none => []

def classConstant (c : Context) (s : Site) : List Violation :=
  match s.node.namedChildren.head? with
  | some cls => if cls.isName then classReferenceRows c s.node cls "class_constant" else []
  | none => []

def instanceTest (c : Context) (s : Site) : List Violation :=
  if s.node.operatorText != "instanceof" then []
  else match s.node.child? .right with
    | some right => if right.isName then classReferenceRows c s.node right "instanceof" else []
    | none => []

/-- The class that a variable names, if it is known. -/
def namedClass? (f : Facts) (var : String) : Option String :=
  match f.classLiterals.find? var with
  | some cls => some cls
  | none =>
    match f.values.find? var with
    | some v => if Text.contains v dynamicMark then none else some (Text.trimLeft (· == '\\') v)
    | none => none

def instantiation (c : Context) (s : Site) : List Violation :=
  let n := s.node
  let report (suffix : String) (severity : Severity) (issue : String) (data : Table Value) :=
    [c.violation ("backdoor_dynamic_class_instantiation_" ++ suffix) severity n issue data]
  if n.isAnonymousCreation then
    let dangerous := c.bodyIsDangerous s
    [c.violation "anonymous_class_leak" (if dangerous then .critical else .info) n
      (if dangerous then "Anonymous class calls forbidden code" else "Anonymous class defined")
      [("dangerous", .bool dangerous)]]
  else match n.createdClass? with
    | none => []
    | some cls =>
      if cls.isName then classReferenceRows c n cls "new"
      else match cls.plainVariable? with
        | none =>
          report "complex" .high "Class name computed from an expression"
            [("expression", .text cls.text)]
        | some var =>
          if c.facts.isSuperglobal var || Node.superglobals.contains var then
            report "superglobal" .critical s!"Class name in ${var} comes from request input"
              [("var", .text var)]
          else match namedClass? c.facts var with
            | none =>
              report "unresolved" .high s!"Class name in ${var} could not be resolved"
                [("var", .text var)]
            | some resolved =>
              if c.policy.isForbiddenClass resolved then
                report "forbidden" .critical
                  s!"new ${var} resolves to forbidden class {resolved}"
                  [("var", .text var), ("class_name", .text resolved)]
              else []

/-- The names of classes in a type. -/
def typeNames (t : Node) : List Node :=
  (t.preorder.filter fun n => n.kind == .namedType).map fun n => n.namedChildren.headD n

def parameterType (c : Context) (s : Site) : List Violation :=
  match s.node.child? .type with
  | none => []
  | some t =>
    (typeNames t).flatMap fun name =>
      let className := c.resolveClass name
      if c.policy.isForbiddenReflection className then
        reflectionRows c s.node className "type_hint"
      else []

/-- The names in an `extends` or `implements` clause. -/
def clauseRows (c : Context) (clause : Node) (type kind : String) : List Violation :=
  (clause.namedChildren.filter Node.isName).flatMap fun name =>
    let className := c.resolveClass name
    let imported :=
      match c.policy.forbiddenNamespaceFor? className with
      | some ns =>
        [c.violation type .critical clause s!"Class {kind} {className} from forbidden namespace"
          [("namespace", .text ns), ("class_name", .text className)]]
      | none => []
    imported ++
      if kind == "extends" && c.policy.isForbiddenReflection className then
        reflectionRows c clause className kind
      else []

def classDeclaration (c : Context) (s : Site) : List Violation :=
  s.node.children.flatMap fun child =>
    match child.kind with
    | .baseClause => clauseRows c child "forbidden_namespace_extends" "extends"
    | .classInterfaceClause => clauseRows c child "forbidden_namespace_implements" "implements"
    | _ => []

def traitUse (c : Context) (s : Site) : List Violation :=
  (s.node.namedChildren.filter Node.isName).flatMap fun name =>
    let trait := c.resolveClass name
    match c.policy.forbiddenNamespaceFor? trait with
    | some ns =>
      [c.violation "forbidden_namespace_trait_use" .critical s.node
        s!"Trait {trait} from forbidden namespace"
        [("namespace", .text ns), ("class_name", .text trait)]]
    | none => []

def importSuffix : ImportKind → String
  | .className => ""
  | .function => "_function"
  | .const => "_const"

def namespaceImport (c : Context) (s : Site) : List Violation :=
  (Import.ofClause s.node.text).flatMap fun i =>
    match c.policy.forbiddenNamespaceFor? i.name with
    | some ns =>
      [c.violation ("forbidden_namespace_import" ++ importSuffix i.kind) .critical s.node
        s!"Import of {i.name} from forbidden namespace"
        [("namespace", .text ns), ("name", .text i.name)]]
    | none => []

/-- The longest string that is taken for a name. -/
def longestName : Nat := 512

def namespaceString (c : Context) (s : Site) : List Violation :=
  match s.node.literal? with
  | none => []
  | some value =>
    if value == "" || longestName < value.length ||
        !(Text.trimBackslashes value).any (· == '\\') then []
    else match c.policy.forbiddenNamespaceFor? value with
      | some ns =>
        [c.violation "forbidden_namespace_string_reference" .high s.node
          s!"String refers to forbidden namespace {ns}"
          [("namespace", .text ns), ("value", .text value)]]
      | none => []

/-- How severe a magic method is, going by the calls from a site on: a dangerous call decides, a
call of an unknown function raises it. -/
def magicSeverity (c : Context) (severity : Severity) : List Site → Severity
  | [] => severity
  | s :: rest =>
    if s.node.kind != .functionCallExpression then magicSeverity c severity rest
    else match c.called? s.node with
      | none => magicSeverity c (if s.node.callee?.isSome then .high else severity) rest
      | some f =>
        if (c.calledVerdict? f).isSome then .critical
        else if !invokers.contains f.name then magicSeverity c severity rest
        else
          let target := s.node.firstArgument?
          match target.bind Node.literal? with
          | some literal =>
            if (c.nameVerdict? (Text.lower literal)).isSome then .critical
            else magicSeverity c severity rest
          | none =>
            let isVariable := (target.bind Node.plainVariable?).isSome
            magicSeverity c (if isVariable then .high else severity) rest

def magicMethod (c : Context) (s : Site) : List Violation :=
  let name := CallGraph.textOf (s.node.child? .name)
  if !c.policy.isForbiddenMagicMethod name then []
  else
    let severity :=
      match s.child? .body with
      | some body => magicSeverity c .low body.preorder
      | none => .low
    let data : Table Value := [("method", .text name)]
    [c.violation "always_forbidden_magic_method" .high s.node
        s!"Forbidden magic method {name} defined" data,
      c.violation "magic_method_defined" severity s.node s!"Magic method {name} defined" data]

end PluginAudit.Php.Detect
