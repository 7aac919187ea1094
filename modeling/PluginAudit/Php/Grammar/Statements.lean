import PluginAudit.Php.Grammar.Expressions

namespace PluginAudit.Php.Grammar

open Php.Parser

/-- One expression, or several between commas. -/
def expressions (g : Grammar) : Parser Node := do
  match ← commaList1 (do return [← g.expression]) with
  | [e] => return e
  | es => span .sequenceExpression es

/-- A body that is one statement, or statements after a colon up to the given word. -/
def bodyOf (g : Grammar) (stop : String) : Parser (List Node) := do
  if (← peekOperator) == ":" then
    let block ← colonBlock g [stop]
    return block.withRole .body :: (← keyword stop) :: (← semicolon)
  else return [(← g .statement).withRole .body]

/-- A further branch of a condition. -/
def elseIf (g : Grammar) (colon : Bool) : Parser Node := do
  let k ← keyword "elseif"
  let condition ← parenthesized g
  let body ← if colon then colonBlock g ["elseif", "else", "endif"] else g .statement
  span .elseIfClause [k, condition, body.withRole .body]

def elseBranch (g : Grammar) (colon : Bool) : Parser Node := do
  let k ← keyword "else"
  let body ← if colon then colonBlock g ["endif"] else g .statement
  span .elseClause [k, body.withRole .body]

def branches (g : Grammar) (colon : Bool) : Parser (List Node) := do
  let more ← many do
    if (← peekWord) == "elseif" then return some [← elseIf g colon] else return none
  let last ← if (← peekWord) == "else" then (do return [← elseBranch g colon]) else pure []
  return more ++ last

def ifStatement (g : Grammar) : Parser Node := do
  let k ← keyword "if"
  let condition ← parenthesized g
  if (← peekOperator) == ":" then
    let body ← colonBlock g ["elseif", "else", "endif"]
    let rest ← branches g true
    let last ← keyword "endif"
    span .ifStatement
      (k :: condition :: body.withRole .body :: rest ++ last :: (← semicolon))
  else
    let body ← g .statement
    span .ifStatement (k :: condition :: body.withRole .body :: (← branches g false))

/-- A case of a switch and its statements. -/
def switchCase (g : Grammar) : Parser Node := do
  let stops := ["case", "default", "endswitch"]
  let w ← peekWord
  let front ←
    if w == "case" then (do return [← keyword "case", ← g.expression])
    else (do return [← keyword "default"])
  let colon ←
    if (← peekOperator) == ":" then (do return [← operator ":"]) else semicolon
  let body ← statements g stops
  span (if w == "case" then .caseStatement else .defaultStatement) (front ++ colon ++ body)

def switchStatement (g : Grammar) : Parser Node := do
  let k ← keyword "switch"
  let subject ← parenthesized g
  let cases := many do
    let w ← peekWord
    if w == "case" || w == "default" then return some [← switchCase g] else return none
  if (← peekOperator) == ":" then
    let colon ← operator ":"
    let items ← cases
    let last ← keyword "endswitch"
    let block ← span .switchBlock (colon :: items ++ last :: (← semicolon))
    span .switchStatement [k, subject, block]
  else
    let opening ← operator "\x7b"
    let items ← cases
    let block ← span .switchBlock (opening :: items ++ [← operator "\x7d"])
    span .switchStatement [k, subject, block]

def whileStatement (g : Grammar) : Parser Node := do
  let k ← keyword "while"
  let condition ← parenthesized g
  span .whileStatement (k :: condition :: (← bodyOf g "endwhile"))

def doStatement (g : Grammar) : Parser Node := do
  let k ← keyword "do"
  let body ← g .statement
  let w ← keyword "while"
  let condition ← parenthesized g
  span .doStatement (k :: body.withRole .body :: w :: condition :: (← semicolon))

def forStatement (g : Grammar) : Parser Node := do
  let part (close : String) : Parser (List Node) := do
    let e ← if (← peekOperator) == close then pure [] else (do return [← expressions g])
    return e ++ [← operator close]
  let front := [← keyword "for", ← operator "("]
  let head := front ++ (← part ";") ++ (← part ";") ++ (← part ")")
  span .forStatement (head ++ (← bodyOf g "endfor"))

/-- A place that a loop writes an item to. -/
def loopPlace (g : Grammar) : Parser Node := do
  if (← peekOperator) == "&" then span .byRef [← operator "&", ← value g]
  else
    let v ← value g
    if v.kind == .arrayCreationExpression then asList v else return v

def foreachStatement (g : Grammar) : Parser Node := do
  let front := [← keyword "foreach", ← operator "(", ← g.expression, ← keyword "as"]
  let first ← loopPlace g
  let place ←
    if (← peekOperator) == "=>" then span .pair [first, ← operator "=>", ← loopPlace g]
    else pure first
  let closing ← operator ")"
  span .foreachStatement (front ++ place :: closing :: (← bodyOf g "endforeach"))

def catchClause (g : Grammar) : Parser Node := do
  let k ← keyword "catch"
  let opening ← operator "("
  let first := [← span .namedType [← anyName]]
  let more ← many do
    if (← peekOperator) == "|" then
      return some [← operator "|", ← span .namedType [← anyName]]
    else return none
  let types ← span .typeList (first ++ more)
  let v ← if (← peekOperator) == "$" then (do return [← variableName]) else pure []
  let closing ← operator ")"
  let body ← compound g
  span .catchClause
    (k :: opening :: types.withRole .type :: v ++ [closing, body.withRole .body])

def tryStatement (g : Grammar) : Parser Node := do
  let k ← keyword "try"
  let body ← compound g
  let rest ← many do
    match ← peekWord with
    | "catch" => return some [← catchClause g]
    | "finally" =>
      let f ← keyword "finally"
      let b ← compound g
      return some [← span .finallyClause [f, b.withRole .body]]
    | _ => return none
  span .tryStatement (k :: body.withRole .body :: rest)

def declareStatement (g : Grammar) : Parser Node := do
  let k ← keyword "declare"
  let opening ← operator "("
  let directives ← commaList (do
    return [← span .declareDirective [← name, ← operator "=", ← g.expression]]) ")"
  let closing ← operator ")"
  let front := k :: opening :: directives ++ [closing]
  match ← peekOperator with
  | ";" => span .declareStatement (front ++ (← semicolon))
  | ":" =>
    let colon ← operator ":"
    let body ← statements g ["enddeclare"]
    let last ← keyword "enddeclare"
    span .declareStatement (front ++ colon :: body ++ last :: (← semicolon))
  | _ =>
    match ← optional semicolon with
    | some _ => span .declareStatement front
    | none => span .declareStatement (front ++ [← g .statement])

def exitStatement (g : Grammar) (w : String) : Parser Node := do
  let k ← keyword w
  let code ←
    if (← peekOperator) == "(" then
      let opening ← operator "("
      let e ← if (← peekOperator) == ")" then pure [] else (do return [← g.expression])
      pure (opening :: e ++ [← operator ")"])
    else pure []
  span .exitStatement (k :: code ++ (← semicolon))

def unsetStatement (g : Grammar) : Parser Node := do
  let k ← keyword "unset"
  let opening ← operator "("
  let items ← commaList (do return [← g.expression]) ")"
  let closing ← operator ")"
  span .unsetStatement (k :: opening :: items ++ closing :: (← semicolon))

def staticVariables (g : Grammar) : Parser Node := do
  let k ← keyword "static"
  let items ← commaList1 do
    let v ← variableName
    let init ←
      if (← peekOperator) == "=" then
        let eq ← operator "="
        let e ← g.expression
        pure [eq, e.withRole .value]
      else pure []
    return [← span .staticVariableDeclaration (v.withRole .name :: init)]
  span .functionStaticDeclaration (k :: items ++ (← semicolon))

def functionDefinition (g : Grammar) : Parser Node := do
  let attrs ← attributes g
  let k ← keyword "function"
  let ref ← reference
  let n ← name
  let params ← parameters g
  let result ← returnType
  let body ← compound g
  span .functionDefinition
    (attrs ++ k :: ref ++ n.withRole .name :: params :: result ++ [body.withRole .body])

def classDeclaration (g : Grammar) : Parser Node := do
  let front := (← attributes g) ++ (← modifiers)
  match ← peekWord with
  | "interface" =>
    let k ← keyword "interface"
    let n ← name
    let bases ← nameClause .baseClause "extends"
    let body ← memberList g .declarationList
    span .interfaceDeclaration
      (front ++ k :: n.withRole .name :: bases ++ [body.withRole .body])
  | "trait" =>
    let k ← keyword "trait"
    let n ← name
    let body ← memberList g .declarationList
    span .traitDeclaration (front ++ [k, n.withRole .name, body.withRole .body])
  | "enum" =>
    let k ← keyword "enum"
    let n ← name
    let backing ← returnType
    let interfaces ← nameClause .classInterfaceClause "implements"
    let body ← memberList g .enumDeclarationList
    span .enumDeclaration
      (front ++ k :: n.withRole .name :: backing ++ interfaces ++ [body.withRole .body])
  | _ =>
    let k ← keyword "class"
    let n ← name
    let bases ← nameClause .baseClause "extends"
    let interfaces ← nameClause .classInterfaceClause "implements"
    let body ← memberList g .declarationList
    span .classDeclaration
      (front ++ k :: n.withRole .name :: bases ++ interfaces ++ [body.withRole .body])

def namespaceDefinition (g : Grammar) : Parser Node := do
  let k ← keyword "namespace"
  if (← peekOperator) == "\x7b" then
    span .namespaceDefinition [k, (← compound g).withRole .body]
  else
    let n := (← namespaceName).withRole .name
    if (← peekOperator) == "\x7b" then
      span .namespaceDefinition [k, n, (← compound g).withRole .body]
    else span .namespaceDefinition (k :: n :: (← semicolon))

/-- The word that says that functions or constants are imported, unless it is a name itself. -/
def importKind : Parser (List Node) := do
  let w ← peekWord
  let marks ← succeeds do
    guard (w == "function" || w == "const")
    let _ ← keyword w
    let op ← peekOperator
    guard ((← peekWord) != "" || op == "\x7b" || op == "\\")
    let s ← read
    guard (!s.looksAt (← get) "\\")
  if marks then return [← keyword w] else return []

def importAlias : Parser (List Node) := do
  if (← peekWord) == "as" then return [← keyword "as", ← name] else return []

def importClause : Parser Node := do
  let n ← anyName
  span .namespaceUseClause (n :: (← importAlias))

def importGroup : Parser Node := do
  let opening ← operator "\x7b"
  let items ← commaList (do
    let kind ← importKind
    let n ← anyName
    return [← span .namespaceUseClause (kind ++ n :: (← importAlias))]) "\x7d"
  span .namespaceUseGroup (opening :: items ++ [← operator "\x7d"])

/-- Imports, one by one or as a group in braces. -/
def namespaceUse : Parser Node := do
  let k ← keyword "use"
  let kind ← importKind
  let grouped ← optional do
    let lead ← operator? "\\"
    let n ← if (← peekOperator) == "\x7b" then pure [] else (do return [← namespaceName])
    let slash ← operator? "\\"
    guard ((← peekOperator) == "\x7b")
    return lead ++ n ++ slash
  match grouped with
  | some front =>
    let group ← importGroup
    span .namespaceUseDeclaration
      (k :: kind ++ front ++ group.withRole .body :: (← semicolon))
  | none =>
    let items ← commaList1 (do return [← importClause])
    span .namespaceUseDeclaration (k :: kind ++ items ++ (← semicolon))

def expressionStatement (g : Grammar) : Parser Node := do
  let e ← g.expression
  span .expressionStatement (e :: (← semicolon))

/-- A jump with an optional operand. -/
def jump (g : Grammar) (k : Kind) (w : String) : Parser Node := do
  let first ← keyword w
  match ← optional semicolon with
  | some close => span k (first :: close)
  | none =>
    let e ← g.expression
    span k (first :: e :: (← semicolon))

/-- Whether a word is followed by a name, as in a declaration. -/
def declares (w : String) : Parser Bool :=
  succeeds do
    let _ ← keyword w
    let next ← peekWord
    guard (next != "" && next != "extends" && next != "implements")

/-- Whether a class, interface, trait or enumeration is declared here. -/
def startsClass (g : Grammar) : Parser Bool :=
  succeeds do
    let _ ← attributes g
    let _ ← modifiers
    let w ← peekWord
    guard (w == "class" || w == "interface" || w == "trait" || w == "enum")
    guard (← declares w)

/-- Whether a function with a name is defined here. -/
def startsFunction (g : Grammar) : Parser Bool :=
  succeeds do
    let _ ← attributes g
    let _ ← keyword "function"
    let _ ← reference
    name

def startsStaticVariables : Parser Bool :=
  succeeds do
    let _ ← keyword "static"
    operator "$"

/-- Whether a word here names a place to jump to. -/
def startsJumpLabel : Parser Bool :=
  succeeds do
    let _ ← name
    operator ":"

/-- Whether a word here introduces a namespace, and is not the front of a name. -/
def startsNamespace : Parser Bool :=
  succeeds do
    let _ ← keyword "namespace"
    guard ((← peekOperator) == "\x7b" || (← peekWord) != "")

/-- A statement that starts with a word. -/
def wordStatement (g : Grammar) (w : String) : Parser Node := do
  if ← startsFunction g then functionDefinition g
  else if ← startsClass g then classDeclaration g
  else match w with
    | "if" => ifStatement g
    | "switch" => switchStatement g
    | "while" => whileStatement g
    | "do" => doStatement g
    | "for" => forStatement g
    | "foreach" => foreachStatement g
    | "goto" => span .gotoStatement ([← keyword "goto", ← name] ++ (← semicolon))
    | "continue" => jump g .continueStatement "continue"
    | "break" => jump g .breakStatement "break"
    | "return" => jump g .returnStatement "return"
    | "try" => tryStatement g
    | "declare" => declareStatement g
    | "echo" =>
      let k ← keyword "echo"
      span .echoStatement (k :: (← expressions g) :: (← semicolon))
    | "exit" | "die" =>
      match ← optional (exitStatement g w) with
      | some n => return n
      | none => expressionStatement g
    | "unset" => unsetStatement g
    | "const" => constants g []
    | "use" => namespaceUse
    | "global" =>
      let k ← keyword "global"
      let items ← commaList1 (do return [← simpleVariable g])
      span .globalDeclaration (k :: items ++ (← semicolon))
    | "namespace" =>
      if ← startsNamespace then namespaceDefinition g else expressionStatement g
    | "static" =>
      if ← startsStaticVariables then staticVariables g else expressionStatement g
    | _ =>
      if w != "default" && w != "parent" && w != "self" && (← startsJumpLabel) then
        span .namedLabelStatement [← name, ← operator ":"]
      else expressionStatement g

def statement (g : Grammar) : Parser Node := do
  match ← peekOperator with
  | ";" => span .emptyStatement [← operator ";"]
  | "\x7b" => compound g
  | "#[" =>
    if ← startsFunction g then functionDefinition g
    else if ← startsClass g then classDeclaration g
    else expressionStatement g
  | _ =>
    let s ← read
    let i ← peek
    let w ← peekWord
    if w != "" && !startsString s i then wordStatement g w else expressionStatement g

end PluginAudit.Php.Grammar
