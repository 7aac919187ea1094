import PluginAudit.Php.Parser

namespace PluginAudit.Php.Grammar

open Php.Parser

/-- The rest of a qualified name: backslashes and names in turn. -/
def qualifiedRest : Parser (List Node) :=
  many do
    if (← peekOperator) == "\\" then
      match ← optional (do return [← operator "\\", ← name]) with
      | some ns => return some ns
      | none => return none
    else return none

/-- A name with or without a namespace. -/
def anyName : Parser Node := do
  if (← peekOperator) == "\\" then
    span .qualifiedName ([← operator "\\", ← name] ++ (← qualifiedRest))
  else
    let relative := (← peekWord) == "namespace"
    let first ← name
    let rest ← qualifiedRest
    if rest.isEmpty then return first
    else if relative then
      span .relativeName ((← read).leaf .token first.start first.stop :: rest)
    else span .qualifiedName (first :: rest)

/-- The name of a namespace. -/
def namespaceName : Parser Node := do
  let first ← name
  span .namespaceName (first :: (← qualifiedRest))

/-- Dollar signs in front of a variable, which name it by the value of another. -/
def simpleVariableFrom (g : Grammar) : Nat → Parser Node
  | 0 => stuck
  | fuel + 1 => do
    let dollar ← operator "$"
    match ← peekOperator with
    | "$" => span .dynamicVariableName [dollar, ← simpleVariableFrom g fuel]
    | "\x7b" =>
      span .dynamicVariableName
        [dollar, ← operator "\x7b", ← g.expression, ← operator "\x7d"]
    | _ => span .variableName [dollar, ← name]

/-- A variable, plain or named by the value of another. -/
def simpleVariable (g : Grammar) : Parser Node := do
  simpleVariableFrom g ((← read).size + 1)

def variableName : Parser Node := do
  span .variableName [← operator "$", ← name]

end PluginAudit.Php.Grammar
