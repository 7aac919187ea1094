import PluginAudit.Php.Detect.Context

namespace PluginAudit.Php.Detect

open Context

/-- Functions that register a callback for later. -/
def registrationFunctions : List String :=
  ["register_shutdown_function", "set_error_handler", "set_exception_handler",
    "register_tick_function"]

/-- Functions that call their first argument. -/
def invokers : List String :=
  ["call_user_func", "call_user_func_array", "forward_static_call", "forward_static_call_array"]

/-- Functions that execute code or commands, and must never see the input of a request. -/
def executionSinks : List String :=
  ["eval", "assert", "create_function", "exec", "system", "shell_exec", "passthru", "popen",
    "proc_open"]

/-- Functions that open a stream by its path. -/
def streamOpeners : List String :=
  ["fopen", "file_get_contents", "file_put_contents", "file", "readfile"]

/-- Data with a function name. -/
def function (name : String) : Table Value :=
  [("function", .text name)]

def namedCall (c : Context) (s : Site) : List Violation :=
  match c.called? s.node with
  | none => []
  | some f =>
    let name := f.name
    let p := c.policy
    let report (on : Bool) (type : String) (severity : Severity) (issue : String) :=
      if on then [c.violation type severity s.node issue (function name)] else []
    (if p.isForbiddenFunction name then
      report true "always_forbidden_function" (if name == "eval" then .critical else .high)
        s!"Call to forbidden function {name}()"
    else
      report (p.isUnsupportedFunction name) "unsupported_function" .medium
        s!"Call to unsupported function {name}()") ++
    report (p.dangerousFunctions.contains name) "config_dangerous_function" .medium
      s!"Call to host-listed dangerous function {name}()" ++
    report (p.riskyFunctions.contains name) "config_risky_function" .low
      s!"Call to host-listed risky function {name}()" ++
    report (p.isObfuscator name) "obfuscation_function" .medium
      s!"Call to obfuscation-capable function {name}()" ++
    report (c.chainsToForbidden f.candidates) "function_call_chain_forbidden" .critical
      s!"{name}() returns a forbidden construct through its call chain"

/-- A call of an element of an array. -/
def elementCall (c : Context) (s : Site) (fn : Node) : List Violation :=
  match c.requestSource? fn.subscriptBase with
  | some source =>
    [c.violation "backdoor_variable_function_call_superglobal" .critical s.node
      "Function name comes from request input"
      [("source", .text source), ("expression", .text fn.text)]]
  | none =>
    [c.violation "backdoor_variable_function_call" .high s.node
      s!"Function call through array element {fn.text}" [("expression", .text fn.text)]]

def variableCall (c : Context) (s : Site) : List Violation :=
  match s.node.callee?.map Node.unwrap with
  | none => []
  | some fn =>
    if fn.kind == .subscriptExpression then elementCall c s fn
    else match fn.plainVariable? with
      | none => []
      | some var =>
        let value := c.facts.values.find? var
        if value.any fun v => Text.contains v superglobalMark then
          [c.violation "backdoor_variable_function_call_superglobal" .critical s.node
            s!"Function name in ${var} comes from request input" [("var", .text var)]]
        else
          let known := value.filter fun v => v != "" && !Text.contains v dynamicMark
          let resolved := known.map Text.lower
          let escalated := resolved.any fun r =>
            c.policy.isForbiddenFunction r || c.chainsToForbidden [r]
          let data : Table Value :=
            ("var", .text var) :: (resolved.map fun r => ("resolved_function", .text r)).toList
          c.violation "backdoor_variable_function_call" (if escalated then .critical else .high)
              s.node s!"Variable function call through ${var}" data ::
            if escalated then
              [c.violation "backdoor_variable_function_call_chain_forbidden" .critical s.node
                s!"${var}() resolves to forbidden {resolved.getD empty}()" data]
            else []
where
  empty : String := ""

def concatCall (c : Context) (s : Site) : List Violation :=
  match s.node.callee?.map Node.unwrap with
  | none => []
  | some fn =>
    if !fn.isConcat then []
    else
      let described := (c.facts.describe fn).getD ""
      let expression := Text.lower (if described == "" then dynamicMark else described)
      let report (type : String) (severity : Severity) (issue : String) :=
        [c.violation type severity s.node issue [("expression", .text expression)]]
      if Text.contains expression dynamicMark || Text.contains expression superglobalMark then
        report "backdoor_concat_function_call_unknown" .high
          "Function name built by concatenation with unknown parts"
      else match c.nameVerdict? expression with
        | some .forbidden =>
          report "backdoor_concat_function_call_always_forbidden" .critical
            s!"Concatenated call resolves to forbidden {expression}()"
        | some .unsupported =>
          report "backdoor_concat_function_call_unsupported" .medium
            s!"Concatenated call resolves to unsupported {expression}()"
        | some .chain =>
          report "backdoor_concat_function_call_chain_forbidden" .critical
            s!"Concatenated call resolves to {expression}() which chains to a forbidden construct"
        | none =>
          report "backdoor_concat_function_call" .high
            s!"Function name built by concatenation: {expression}"

/-- The dangerous calls in a closure. -/
def closureCalls (c : Context) (closure : Site) : List Violation :=
  match closure.child? .body with
  | none => []
  | some body =>
    body.preorder.flatMap fun s =>
      if s.node.kind != .functionCallExpression then []
      else match c.called? s.node with
        | none => []
        | some f =>
          match c.calledVerdict? f with
          | some .forbidden =>
            [c.violation "closure_calls_always_forbidden" .critical s.node
              s!"Closure calls forbidden function {f.name}()" (function f.name)]
          | some .unsupported =>
            [c.violation "closure_calls_unsupported" .medium s.node
              s!"Closure calls unsupported function {f.name}()" (function f.name)]
          | some .chain =>
            [c.violation "closure_calls_forbidden_chain" .critical s.node
              s!"Closure calls {f.name}() which returns a forbidden construct" (function f.name)]
          | none => []

/-- A callback that is given by its name. -/
def namedCallback (c : Context) (s : Site) (name literal : String) : List Violation :=
  let target := Text.lower (Text.trimLeft (· == '\\') (Text.strip literal))
  if target == "" || Text.contains target "::" then []
  else
    let report (type : String) (severity : Severity) (issue : String) :=
      [c.violation type severity s.node issue
        [("function", .text name), ("callback", .text target)]]
    match c.nameVerdict? target with
    | some .forbidden =>
      report "callback_always_forbidden" .critical
          s!"{name}() given forbidden callback {target}" ++
        if registrationFunctions.contains name then
          report "always_forbidden_callback_to_forbidden_function" .critical
            s!"{name}() registers forbidden {target}()"
        else []
    | some .unsupported =>
      report "callback_unsupported" .medium s!"{name}() given unsupported callback {target}"
    | some .chain =>
      report "callback_user_defined_forbidden_chain" .critical
        s!"{name}() given {target} which chains to a forbidden construct"
    | none => []

def callback (c : Context) (s : Site) : List Violation :=
  match c.called? s.node with
  | none => []
  | some f =>
    let name := f.name
    if !(c.policy.isCallbackFunction name || invokers.contains name) then []
    else s.node.argumentValues.flatMap fun arg =>
      let arg := arg.unwrap
      match arg.literal? with
      | some literal => namedCallback c s name literal
      | none =>
        if arg.kind.isClosure then
          let rows := closureCalls c (s.at_ arg)
          if rows.isEmpty then []
          else rows ++ [c.violation "callback_closure_forbidden" .critical s.node
            s!"Closure passed to {name}() calls forbidden code" (function name)]
        else []

def obfuscatedEval (c : Context) (s : Site) : List Violation :=
  match c.called? s.node with
  | none => []
  | some f =>
    if f.name != "eval" then []
    else
      let chain :=
        match s.node.firstArgument? with
        | some a => CallGraph.callChain CallGraph.callChainDepth a
        | none => []
      if chain.any c.policy.isObfuscator then
        [c.violation "always_forbidden_obfuscated_eval" .critical s.node
          ("eval() of decoded/obfuscated payload: " ++ Text.join " -> " chain)
          [("chain", .texts chain)]]
      else []

def wrapperStream (c : Context) (s : Site) : List Violation :=
  match c.called? s.node with
  | none => []
  | some f =>
    if !streamOpeners.contains f.name then []
    else match (s.node.firstArgument?.bind Node.literal?).bind c.policy.forbiddenWrapperFor? with
      | some wrapper =>
        if wrapper == "" then []
        else [c.violation "always_forbidden_wrapper_stream" .critical s.node
          s!"{f.name}() through forbidden stream wrapper {wrapper}"
          [("function", .text f.name), ("wrapper", .text wrapper)]]
      | none => []

def requestCode (c : Context) (s : Site) : List Violation :=
  match c.called? s.node with
  | none => []
  | some f =>
    if !executionSinks.contains f.name then []
    else match s.node.argumentValues.findSome? fun a =>
        (c.requestSource? a).filter fun source => source != "" with
      | some source =>
        [c.violation "dynamic_code_from_superglobal" .critical s.node
          s!"{f.name}() receives request input"
          [("function", .text f.name), ("source", .text source)]]
      | none => []

def callDetectors : List Detector :=
  [namedCall, variableCall, concatCall, callback, obfuscatedEval, wrapperStream, requestCode]

end PluginAudit.Php.Detect
