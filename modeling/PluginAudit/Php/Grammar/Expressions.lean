import PluginAudit.Php.Grammar.Members

namespace PluginAudit.Php.Grammar

open Php.Parser

/-- An element of an array: a value, a reference or a spread value, with an optional key. -/
def element (g : Grammar) : Parser Node := do
  let value : Parser Node := do
    if (← peekOperator) == "&" then span .byRef [← operator "&", ← g.expression] else g.expression
  if (← peekOperator) == "..." then span .arrayElementInitializer [← unpacking g]
  else
    let first ← value
    if (← peekOperator) == "=>" then
      span .arrayElementInitializer [first, ← operator "=>", ← value]
    else span .arrayElementInitializer [first]

def array (g : Grammar) (front : List Node) (opening closing : String) : Parser Node := do
  let first ← operator opening
  let items ← commaList (do return [← element g]) closing
  span .arrayCreationExpression (front ++ first :: items ++ [← operator closing])

/-- An array read as a list of places to write to. -/
def asList (n : Node) : Parser Node :=
  span .listLiteral (n.children.flatMap fun c =>
    if c.kind == .arrayElementInitializer then c.children else [c])

def parenthesized (g : Grammar) : Parser Node := do
  span .parenthesizedExpression [← operator "(", ← g.expression, ← operator ")"]

/-- The name of a member after an arrow or a double colon. -/
def memberName (g : Grammar) : Parser (List Node) := do
  match ← peekOperator with
  | "$" => return [(← simpleVariable g).withRole .name]
  | "\x7b" =>
    let opening ← operator "\x7b"
    let e ← g.expression
    return [opening, e.withRole .name, ← operator "\x7d"]
  | _ => return [(← name).withRole .name]

def subscript (g : Grammar) (base : Node) : Parser Node := do
  let opening ← operator "["
  let index ← if (← peekOperator) == "]" then pure [] else (do return [← g.expression])
  span .subscriptExpression (base :: opening :: index ++ [← operator "]"])

/-- Whether an index in braces can follow: only a place that holds a value has one. -/
def takesBraces : Kind → Bool
  | .variableName | .subscriptExpression | .memberAccessExpression => true
  | .scopedPropertyAccessExpression => true
  | _ => false

def braceSubscript (g : Grammar) (base : Node) : Parser Node := do
  span .subscriptExpression [base, ← operator "\x7b", ← g.expression, ← operator "\x7d"]

/-- A property, or the call of a method. -/
def memberOf (g : Grammar) (base : Node) (arrow : String) : Parser Node := do
  let op ← operator arrow
  let n ← memberName g
  let front := base.withRole .object :: op :: n
  let nullsafe := arrow == "?->"
  if (← peekOperator) == "(" then
    let args ← arguments g
    span (if nullsafe then .nullsafeMemberCallExpression else .memberCallExpression)
      (front ++ [args.withRole .arguments])
  else
    span (if nullsafe then .nullsafeMemberAccessExpression else .memberAccessExpression) front

/-- A static property, a class constant, or the call of a static method. -/
def staticOf (g : Grammar) (base : Node) : Parser Node := do
  let op ← operator "::"
  let isVariable := (← peekOperator) == "$"
  let n ← memberName g
  if (← peekOperator) == "(" then
    let args ← arguments g
    span .scopedCallExpression
      (base.withRole .scope :: op :: n ++ [args.withRole .arguments])
  else if isVariable then
    span .scopedPropertyAccessExpression (base.withRole .scope :: op :: n)
  else span .classConstantAccessExpression (base :: op :: n)

/-- What may follow a value: indices, members, calls. -/
def postfixes (g : Grammar) : Nat → Node → Parser Node
  | 0, n => return n
  | fuel + 1, n => do
    match ← peekOperator with
    | "[" => postfixes g fuel (← subscript g n)
    | "->" => postfixes g fuel (← memberOf g n "->")
    | "?->" => postfixes g fuel (← memberOf g n "?->")
    | "::" => postfixes g fuel (← staticOf g n)
    | "(" =>
      let args ← arguments g
      postfixes g fuel
        (← span .functionCallExpression [n.withRole .callee, args.withRole .arguments])
    | "\x7b" =>
      if takesBraces n.kind then postfixes g fuel (← braceSubscript g n) else return n
    | "++" => span .updateExpression [n, ← operator "++"]
    | "--" => span .updateExpression [n, ← operator "--"]
    | _ => return n

def withPostfixes (g : Grammar) (n : Node) : Parser Node := do
  postfixes g ((← read).size + 1) n

/-- What may follow the class of a new object: indices and properties, no calls. -/
def classPostfixes (g : Grammar) : Nat → Node → Parser Node
  | 0, n => return n
  | fuel + 1, n => do
    match ← peekOperator with
    | "[" => classPostfixes g fuel (← subscript g n)
    | "->" =>
      let op ← operator "->"
      classPostfixes g fuel
        (← span .memberAccessExpression (n.withRole .object :: op :: (← memberName g)))
    | "?->" =>
      let op ← operator "?->"
      classPostfixes g fuel
        (← span .nullsafeMemberAccessExpression (n.withRole .object :: op :: (← memberName g)))
    | "::" =>
      let op ← operator "::"
      let v ← simpleVariable g
      classPostfixes g fuel
        (← span .scopedPropertyAccessExpression [n.withRole .scope, op, v.withRole .name])
    | _ => return n

/-- The class after `new` or `instanceof`. -/
def classReference (g : Grammar) : Parser Node := do
  let fuel := (← read).size + 1
  match ← peekOperator with
  | "(" => parenthesized g
  | "$" => classPostfixes g fuel (← simpleVariable g)
  | _ =>
    let n ← anyName
    if (← peekOperator) == "::" then classPostfixes g fuel n else return n

/-- Whether a class without a name is declared here. -/
def startsAnonymousClass (g : Grammar) : Parser Bool :=
  succeeds do
    let _ ← attributes g
    let _ ← modifiers
    let _ ← keyword "class"
    let op ← peekOperator
    let w ← peekWord
    guard (op == "(" || op == "\x7b" || w == "extends" || w == "implements")

def anonymousClass (g : Grammar) : Parser Node := do
  let attrs ← attributes g
  let mods ← modifiers
  let k ← keyword "class"
  let args ← if (← peekOperator) == "(" then (do return [← arguments g]) else pure []
  let bases ← nameClause .baseClause "extends"
  let interfaces ← nameClause .classInterfaceClause "implements"
  let body ← memberList g .declarationList
  span .anonymousClass (attrs ++ mods ++ k :: args ++ bases ++ interfaces ++ [body.withRole .body])

/-- A new object. Only with arguments can it be followed by a member. -/
def creation (g : Grammar) : Parser Node := do
  let k ← keyword "new"
  if ← startsAnonymousClass g then
    withPostfixes g (← span .objectCreationExpression [k, ← anonymousClass g])
  else
    let c ← classReference g
    if (← peekOperator) == "(" then
      withPostfixes g (← span .objectCreationExpression [k, c, ← arguments g])
    else span .objectCreationExpression [k, c]

/-- The variables that a closure takes from around it. -/
def captured : Parser (List Node) := do
  if (← peekWord) == "use" then
    let k ← keyword "use"
    let opening ← operator "("
    let items ← commaList (do
      if (← peekOperator) == "&" then
        return [← span .byRef [← operator "&", ← variableName]]
      else return [← variableName]) ")"
    return [← span .anonymousFunctionUseClause (k :: opening :: items ++ [← operator ")"])]
  else return []

/-- A closure, with its attributes and modifiers. -/
def closure (g : Grammar) : Parser Node := do
  let attrs ← attributes g
  let static ←
    if (← peekWord) == "static" then (do return [← word .staticModifier]) else pure []
  match ← peekWord with
  | "fn" =>
    let k ← keyword "fn"
    let ref ← reference
    let params ← parameters g
    let result ← returnType
    let arrow ← operator "=>"
    let body ← g.expression
    span .arrowFunction
      (attrs ++ static ++ k :: ref ++ params :: result ++ [arrow, body.withRole .body])
  | _ =>
    let k ← keyword "function"
    let ref ← reference
    let params ← parameters g
    let uses ← captured
    let result ← returnType
    let body ← compound g
    span .anonymousFunction
      (attrs ++ static ++ k :: ref ++ params :: uses ++ result ++ [body.withRole .body])

/-- Whether a closure starts here. -/
def startsClosure : Parser Bool :=
  succeeds do
    let _ ← keyword? "static"
    let w ← peekWord
    guard (w == "fn" || w == "function")
    let _ ← keyword w
    let op ← peekOperator
    guard (op == "(" || op == "&")

def matchArm (g : Grammar) : Parser Node := do
  let isDefault ← succeeds do
    let _ ← keyword "default"
    let op ← peekOperator
    guard (op == "=>" || op == ",")
  if isDefault then
    let k ← keyword "default"
    let comma ← operator? ","
    let arrow ← operator "=>"
    span .matchDefaultExpression (k :: comma ++ [arrow, ← g.expression])
  else
    let conditions ← commaList (do return [← g.expression]) "=>"
    let list ← span .matchConditionList conditions
    let arrow ← operator "=>"
    span .matchConditionalExpression [list, arrow, ← g.expression]

def matchExpression (g : Grammar) : Parser Node := do
  let k ← keyword "match"
  let subject ← parenthesized g
  let opening ← operator "\x7b"
  let arms ← commaList (do return [← matchArm g]) "\x7d"
  let block ← span .matchBlock (opening :: arms ++ [← operator "\x7d"])
  span .matchExpression [k, subject, block]

/-- The words that name a type in a cast. -/
def castTypes : List String :=
  ["array", "binary", "bool", "boolean", "double", "int", "integer", "float", "object", "real",
    "string", "unset"]

def startsCast : Parser Bool :=
  succeeds do
    let _ ← operator "("
    guard (castTypes.contains (← peekWord))
    let _ ← name
    operator ")"

/-- The binding of binary operators: the level, and whether they group to the right. -/
def binding? : String → Option (Nat × Bool)
  | "or" => some (1, false)
  | "xor" => some (2, false)
  | "and" => some (3, false)
  | "??" => some (6, true)
  | "||" => some (7, false)
  | "&&" => some (8, false)
  | "|" => some (9, false)
  | "^" => some (10, false)
  | "&" => some (11, false)
  | "==" | "!=" | "<>" | "===" | "!==" => some (12, false)
  | "<" | ">" | "<=" | ">=" | "<=>" | "|>" => some (13, false)
  | "." => some (14, false)
  | "<<" | ">>" => some (15, false)
  | "+" | "-" => some (16, false)
  | "*" | "/" | "%" => some (17, false)
  | "**" => some (18, true)
  | _ => none

def assignmentLevel : Nat := 4

def conditionalLevel : Nat := 5

def negationLevel : Nat := 20

def instanceofLevel : Nat := 20

/-- Above all binary operators. -/
def tightLevel : Nat := 22

def augmentedOperators : List String :=
  ["**=", "*=", "/=", "%=", "+=", "-=", ".=", "<<=", ">>=", "&=", "^=", "|=", "??="]

/-- Whether a value can stand on the left of an assignment. -/
def isPlace : Kind → Bool
  | .variableName | .dynamicVariableName | .subscriptExpression | .memberAccessExpression
  | .nullsafeMemberAccessExpression | .scopedPropertyAccessExpression | .memberCallExpression
  | .nullsafeMemberCallExpression | .scopedCallExpression | .functionCallExpression
  | .listLiteral => true
  | _ => false

/-- A value, or an assignment to it, whatever binds around it. -/
def assigned (g : Grammar) (n : Node) : Parser Node := do
  let op ← peekOperator
  if op == "=" && (isPlace n.kind || n.kind == .arrayCreationExpression) then
    let left ← if n.kind == .arrayCreationExpression then asList n else pure n
    let eq ← operator "="
    if (← peekOperator) == "&" then
      let ref ← span .referenceModifier [← operator "&"]
      let right ← g (.expression assignmentLevel)
      span .referenceAssignmentExpression
        [left.withRole .left, eq, ref, right.withRole .right]
    else
      let right ← g (.expression assignmentLevel)
      span .assignmentExpression [left.withRole .left, eq, right.withRole .right]
  else if augmentedOperators.contains op && isPlace n.kind then
    let o ← operator op
    let right ← g (.expression assignmentLevel)
    span .augmentedAssignmentExpression
      [n.withRole .left, o.withRole .operator, right.withRole .right]
  else return n

/-- A keyword and the expression it takes. -/
def taking (g : Grammar) (k : Kind) (w : String) : Parser Node := do
  span k [← keyword w, ← g.expression]

def yieldExpression (g : Grammar) : Parser Node := do
  let k ← keyword "yield"
  let op ← peekOperator
  if (← peekWord) == "from" then
    let from_ ← keyword "from"
    span .yieldExpression [k, from_, ← g.expression]
  else if op == ";" || op == ")" || op == "," || op == "]" || op == "\x7d" then
    span .yieldExpression [k]
  else span .yieldExpression [k, ← element g]

/-- A value that starts with a word. -/
def wordValue (g : Grammar) (w : String) : Parser Node := do
  let closes ← startsClosure
  if closes then closure g
  else match w with
    | "new" => creation g
    | "clone" => span .cloneExpression [← keyword "clone", ← g (.expression tightLevel)]
    | "print" => taking g .printIntrinsic "print"
    | "throw" => taking g .throwExpression "throw"
    | "include" => taking g .includeExpression "include"
    | "include_once" => taking g .includeOnceExpression "include_once"
    | "require" => taking g .requireExpression "require"
    | "require_once" => taking g .requireOnceExpression "require_once"
    | "yield" => yieldExpression g
    | "true" | "false" => word .boolean
    | "null" => word .null
    | _ =>
      let next ← succeeds do
        let _ ← name
        guard ((← peekOperator) == "(")
      if w == "array" && next then
        withPostfixes g (← array g [← keyword "array"] "(" ")")
      else if w == "list" && next then
        asList (← array g [← keyword "list"] "(" ")")
      else if w == "match" && next then matchExpression g
      else if w == "self" || w == "static" || w == "parent" then
        let n ← name
        if (← peekOperator) == "::" then
          withPostfixes g ((← read).leaf .relativeScope n.start n.stop)
        else withPostfixes g n
      else withPostfixes g (← anyName)

/-- A value without binary operators around it. -/
def value (g : Grammar) : Parser Node := do
  let s ← read
  let i ← peek
  if startsString s i then withPostfixes g (← string g)
  else match s.number? i with
    | some (k, j) => leaf k i j
    | none =>
      let w ← peekWord
      if w != "" then wordValue g w
      else match ← peekOperator with
        | "$" => withPostfixes g (← simpleVariable g)
        | "[" => withPostfixes g (← array g [] "[" "]")
        | "\\" => withPostfixes g (← anyName)
        | "\x60" => shellCommand g
        | "#[" => closure g
        | "(" =>
          if ← startsCast then
            let opening ← operator "("
            let t ← word .castType
            let closing ← operator ")"
            span .castExpression [opening, t, closing, ← g (.expression tightLevel)]
          else withPostfixes g (← parenthesized g)
        | "@" => span .errorSuppressionExpression [← operator "@", ← g (.expression tightLevel)]
        | "!" => span .unaryOpExpression [← operator "!", ← g (.expression negationLevel)]
        | "-" => span .unaryOpExpression [← operator "-", ← g (.expression negationLevel)]
        | "+" => span .unaryOpExpression [← operator "+", ← g (.expression negationLevel)]
        | "~" => span .unaryOpExpression [← operator "~", ← g (.expression negationLevel)]
        | "++" => span .updateExpression [← operator "++", ← g (.expression tightLevel)]
        | "--" => span .updateExpression [← operator "--", ← g (.expression tightLevel)]
        | _ => stuck

/-- Binary operators after an operand, as far as they bind at least as tightly as `level`. -/
def binaries (g : Grammar) (level : Nat) : Nat → Node → Parser Node
  | 0, n => return n
  | fuel + 1, left => do
    let w ← peekWord
    let op ← if w != "" then pure w else peekOperator
    if op == "?" && level ≤ conditionalLevel then
      let mark ← operator "?"
      let body ←
        if (← peekOperator) == ":" then pure [] else (do return [(← g.expression).withRole .body])
      let colon ← operator ":"
      let other ← g (.expression (conditionalLevel + 1))
      binaries g level fuel
        (← span .conditionalExpression (left :: mark :: body ++ [colon, other]))
    else if op == "instanceof" && level ≤ instanceofLevel then
      let o ← keyword op
      let right ← classReference g
      binaries g level fuel
        (← span .binaryExpression
          [left.withRole .left, o.withRole .operator, right.withRole .right])
    else match binding? op with
      | none => return left
      | some (bound, toRight) =>
        if level ≤ bound then
          let o ← if w != "" then keyword op else operator op
          let right ← g (.expression (if toRight then bound else bound + 1))
          binaries g level fuel
            (← span .binaryExpression
              [left.withRole .left, o.withRole .operator, right.withRole .right])
        else return left

/-- An expression whose binary operators bind at least as tightly as `level`. -/
def expressionAt (g : Grammar) (level : Nat) : Parser Node := do
  let first ← assigned g (← value g)
  binaries g level ((← read).size + 1) first

end PluginAudit.Php.Grammar
