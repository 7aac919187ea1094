import PluginAudit.Php.Grammar.Blocks

namespace PluginAudit.Php.Grammar

open Php.Parser

/-- The list of names after `extends` or `implements`. -/
def nameClause (k : Kind) (w : String) : Parser (List Node) := do
  if (← peekWord) == w then
    let first ← keyword w
    return [← span k (first :: (← commaList1 (do return [← anyName])))]
  else return []

def constElement (g : Grammar) : Parser Node := do
  span .constElement [← name, ← operator "=", ← g.expression]

/-- Constants, with an optional type. -/
def constants (g : Grammar) (front : List Node) : Parser Node := do
  let k ← keyword "const"
  let typed ← succeeds do
    let _ ← type
    let _ ← name
    guard ((← peekOperator) == "=")
  let ty ← if typed then (do return [(← type).withRole .type]) else pure []
  let items ← commaList1 (do return [← constElement g])
  span .constDeclaration (front ++ k :: ty ++ items ++ (← semicolon))

/-- The accessors of a property, in braces. -/
def hooks (g : Grammar) : Parser Node := do
  let opening ← operator "\x7b"
  let items ← many do
    if (← peekOperator) == "\x7d" then return none
    else
      let attrs ← attributes g
      let mods ← modifiers
      let ref ← reference
      let n ← name
      let params ← if (← peekOperator) == "(" then (do return [← parameters g]) else pure []
      let body ←
        match ← peekOperator with
        | "=>" => do
          let arrow ← operator "=>"
          let value ← g.expression
          pure (arrow :: value.withRole .body :: (← semicolon))
        | "\x7b" => do pure [(← compound g).withRole .body]
        | _ => semicolon
      return some [← span .propertyHook (attrs ++ mods ++ ref ++ n :: params ++ body)]
  span .propertyHookList (opening :: items ++ [← operator "\x7d"])

def propertyElement (g : Grammar) : Parser Node := do
  let v ← variableName
  span .propertyElement (v.withRole .name :: (← default g))

/-- A property declaration after its modifiers. -/
def property (g : Grammar) (front : List Node) : Parser Node := do
  let ty ←
    if (← peekOperator) == "$" then pure [] else (do return [(← type).withRole .type])
  let items ← commaList1 (do return [← propertyElement g])
  let close ←
    if (← peekOperator) == "\x7b" then (do return [← hooks g]) else semicolon
  span .propertyDeclaration (front ++ ty ++ items ++ close)

/-- A method after its modifiers. -/
def method (g : Grammar) (front : List Node) : Parser Node := do
  let k ← keyword "function"
  let ref ← reference
  let n ← name
  let params ← parameters g
  let result ← returnType
  let body ←
    if (← peekOperator) == "\x7b" then (do return [(← compound g).withRole .body])
    else semicolon
  span .methodDeclaration (front ++ k :: ref ++ n.withRole .name :: params :: result ++ body)

/-- A rule that settles a conflict of traits or renames one of their methods. -/
def adaptation : Parser Node := do
  let first ← anyName
  let tail ←
    if (← peekOperator) == "::" then (do return [← operator "::", ← name]) else pure []
  let left ←
    if tail.isEmpty then pure first
    else span .classConstantAccessExpression (first :: tail)
  match ← peekWord with
  | "insteadof" =>
    let k ← keyword "insteadof"
    let names ← commaList1 (do return [← anyName])
    span .useInsteadOfClause (left :: k :: names ++ (← semicolon))
  | _ =>
    let k ← keyword "as"
    let mods ← modifiers
    let newName ← if (← peekWord) != "" then (do return [← name]) else pure []
    span .useAsClause (left :: k :: mods ++ newName ++ (← semicolon))

/-- The use of traits in a class. -/
def traitUse : Parser Node := do
  let k ← keyword "use"
  let names ← commaList1 (do return [← anyName])
  if (← peekOperator) == "\x7b" then
    let opening ← operator "\x7b"
    let rules ← many do
      if (← peekOperator) == "\x7d" then return none else return some [← adaptation]
    let list ← span .useList (opening :: rules ++ [← operator "\x7d"])
    span .useDeclaration (k :: names ++ [list])
  else span .useDeclaration (k :: names ++ (← semicolon))

def enumCase (g : Grammar) (front : List Node) : Parser Node := do
  let k ← keyword "case"
  let n ← name
  span .enumCase (front ++ k :: n.withRole .name :: (← default g) ++ (← semicolon))

/-- A member of a class, interface, trait or enumeration. -/
def member (g : Grammar) : Parser Node := do
  if (← peekWord) == "use" then traitUse
  else
    let attrs ← attributes g
    let front := attrs ++ (← modifiers)
    match ← peekWord with
    | "function" => method g front
    | "const" => constants g front
    | "case" => enumCase g front
    | _ => property g front

/-- A member, or a token where none can be read before the source ends. -/
def memberOrToken (g : Grammar) : Parser Node := fun s i =>
  match member g s i with
  | .error ⟨false⟩ => (do span .error [← anyToken]) s i
  | r => r

/-- Members in braces. -/
def memberList (g : Grammar) (k : Kind) : Parser Node := do
  let opening ← operator "\x7b"
  let members ← many do
    if (← peekOperator) == "\x7d" then return none else return some [← memberOrToken g]
  span k (opening :: members ++ [← operator "\x7d"])

end PluginAudit.Php.Grammar
