import PluginAudit.Php.Detect.Classes

namespace PluginAudit.Php.Detect

open Context

def magicConstants : List String := ["__dir__", "__file__"]

/-- Arrays whose elements outlive the code that writes them. -/
def leakyGlobals : List String := ["GLOBALS", "_SESSION", "_ENV", "_SERVER"]

/-- Whether a path is made of literals and magic constants only. -/
def isStaticPath (n : Node) : Bool :=
  n.isConcat && n.concatParts.all fun part =>
    part.literal?.isSome ||
      (part.kind == .name && magicConstants.contains (Text.lower part.text))

def inclusion (c : Context) (s : Site) : List Violation :=
  match s.node.namedChildren.head?.map Node.unwrap with
  | none => []
  | some target =>
    match target.literal? with
    | some literal =>
      match c.policy.forbiddenWrapperFor? literal with
      | some wrapper =>
        if wrapper == "" then []
        else
          [c.violation "always_forbidden_wrapper_stream_include" .critical s.node
              s!"Include through forbidden stream wrapper {wrapper}" [("wrapper", .text wrapper)],
            c.violation "include_forbidden_wrapper" .critical s.node
              s!"Include path uses {wrapper}" [("wrapper", .text wrapper)]]
      | none => []
    | none =>
      if isStaticPath target then []
      else
        let data : Table Value := [("expr_type", .text target.kind.label)]
        [c.violation "always_forbidden_dynamic_include" .high s.node
            "Include/require of a non-literal path" data,
          if (c.requestSource? target).any fun source => source != "" then
            c.violation "include_dynamic_path_superglobal" .critical s.node
              "Include path comes from request input" data
          else
            c.violation "include_dynamic_path" .high s.node "Include path computed at runtime" data]

def variableVariable (c : Context) (s : Site) : List Violation :=
  if s.parent == some .dynamicVariableName then []
  else [c.violation "variable_variable_usage" .low s.node s!"Variable variable {s.node.text}"
    [("expression", .text s.node.text)]]

def dynamicProperty (c : Context) (s : Site) : List Violation :=
  match (s.node.child? .name).bind Node.plainVariable? with
  | none => []
  | some var =>
    let value := c.facts.values.find? var
    if value.any fun v => Text.contains v superglobalMark then
      [c.violation "dynamic_property_access_superglobal" .critical s.node
        s!"Property name in ${var} comes from request input" [("var", .text var)]]
    else
      let cls := c.receiverClass (s.node.child? .object) s
      let chained :=
        match value with
        | some v =>
          if v != "" && !Text.contains v dynamicMark && cls != "" && c.methodChains cls v then
            [c.violation "dynamic_property_access_chain_forbidden" .critical s.node
              s!"${var} resolves to {cls}::{v} which chains to a forbidden construct"
              [("var", .text var), ("class_name", .text cls)]]
          else []
        | none => []
      c.violation "dynamic_property_access" .low s.node
        s!"Dynamic property access through ${var}" [("var", .text var)] :: chained

def dynamicStaticProperty (c : Context) (s : Site) : List Violation :=
  let name :=
    match s.node.child? .name with
    | some n => some n
    | none => if 1 < s.node.namedChildren.length then s.node.namedChildren.getLast? else none
  if name.any fun n => n.kind == .dynamicVariableName then
    [c.violation "dynamic_static_property_access" .medium s.node
      "Static property accessed through a variable name" [("expression", .text s.node.text)]]
  else []

def assignmentLeak (c : Context) (s : Site) : List Violation :=
  match s.node.child? .left, (s.child? .right).map Site.unwrap with
  | some left, some right =>
    let stored :=
      if left.kind != .subscriptExpression then []
      else match left.subscriptBase.plainVariable? with
        | none => []
        | some base =>
          if leakyGlobals.contains base || Node.superglobals.contains base then
            let dangerous := c.isDangerousValue right
            [c.violation "global_or_session_leak" (if dangerous then .critical else .high) s.node
              s!"Value stored into ${base}"
              [("target", .text base), ("dangerous", .bool dangerous)]]
          else []
    let closure :=
      if !right.node.kind.isClosure then []
      else
        let dangerous := c.bodyOfIsDangerous right
        [c.violation "anonymous_function_leak" (if dangerous then .critical else .info) s.node
          (if dangerous then "Closure stored in a variable calls forbidden code"
            else "Closure stored in a variable")
          [("dangerous", .bool dangerous)]]
    stored ++ closure
  | _, _ => []

def staticVariable (c : Context) (s : Site) : List Violation :=
  (s.node.namedChildren.filter fun d => d.kind == .staticVariableDeclaration).flatMap fun decl =>
    match decl.child? .value with
    | none => []
    | some value =>
      if c.isDangerousValue (s.at_ value) then
        let name := CallGraph.textOf (decl.child? .name)
        [c.violation "static_variable_leak" .critical decl
          s!"Static variable {name} holds forbidden code" [("var", .text name)]]
      else []

/-- The class of a returned method call, if it is known. -/
def returnedClass (c : Context) (expr : Site) : String :=
  match expr.node.kind with
  | .memberCallExpression =>
    match (expr.node.child? .object).bind Node.plainVariable? with
    | some "this" => c.currentClass expr
    | _ => ""
  | _ => c.scopeClass (expr.node.child? .scope) expr

def returnedMethod (c : Context) (s expr : Site) : List Violation :=
  match expr.node.child? .name with
  | none => []
  | some method =>
    if method.kind != .name then []
    else
      let cls := returnedClass c expr
      if cls != "" && c.methodChains cls method.text then
        [c.violation "return_indirect_forbidden_method_chain" .critical s.node
          s!"Returns {cls}::{method.text}() which chains to a forbidden construct"
          [("class_name", .text cls), ("method", .text method.text)]]
      else []

def returned (c : Context) (s : Site) : List Violation :=
  match s.node.returned? with
  | none => []
  | some e =>
    let expr := s.at_ e.unwrap
    match expr.node.literal? with
    | some literal =>
      if c.policy.isForbiddenName literal then
        [c.violation "return_forbidden_function" .critical s.node
          s!"Returns the name of forbidden function {literal}"
          [("function", .text (Text.lower literal)), ("literal", .bool true)]]
      else []
    | none =>
      match expr.node.kind with
      | .objectCreationExpression =>
        match expr.node.createdClass? with
        | none => []
        | some cls =>
          let className := c.resolveClass cls
          if cls.isName && c.policy.isForbiddenClass className then
            [c.violation "return_forbidden_class" .critical s.node
              s!"Returns an instance of forbidden class {className}"
              [("class_name", .text className)]]
          else []
      | .functionCallExpression =>
        match c.called? expr.node with
        | none => []
        | some f =>
          if c.policy.isForbiddenName f.name then
            [c.violation "return_forbidden_function" .critical s.node
              s!"Returns the result of forbidden {f.name}()" (function f.name)]
          else if c.chainsToForbidden f.candidates then
            [c.violation "return_indirect_forbidden_chain" .critical s.node
              s!"Returns {f.name}() which chains to a forbidden construct" (function f.name)]
          else []
      | .memberCallExpression | .scopedCallExpression => returnedMethod c s expr
      | _ => []

/-- A file above the size that the policy allows for its extension. -/
def tooLarge (c : Context) : List Violation :=
  match c.policy.limits.scanSize.find? c.extension with
  | none => []
  | some cap =>
    if (c.size : Int) > cap then
      [{ type := "config_file_too_large"
         severity := .medium
         file := c.script.path
         line := 0
         snippet := ""
         issue := s!"File is {c.size} bytes; the .{c.extension} limit is {cap}"
         data := [("size", .ofNat c.size), ("limit", .int cap)] }]
    else []

end PluginAudit.Php.Detect
