import PluginAudit.Php.Grammar.Strings

namespace PluginAudit.Php.Grammar

open Php.Parser

/-- A spread value. -/
def unpacking (g : Grammar) : Parser Node := do
  span .variadicUnpacking [← operator "...", ← g.expression]

/-- Whether a name with a single colon comes next. -/
def startsLabel : Parser Bool :=
  succeeds do
    let _ ← name
    guard ((← peekOperator) == ":")

/-- One argument of a call: a value, with an optional label, or a spread value. -/
def argument (g : Grammar) : Parser Node := do
  if (← peekOperator) == "..." then span .argument [← unpacking g]
  else
    let label ← if ← startsLabel then (do return [← name, ← operator ":"]) else pure []
    let reference ←
      if (← peekOperator) == "&" then (do return [← span .referenceModifier [← operator "&"]])
      else pure []
    span .argument (label ++ reference ++ [← g.expression])

/-- The arguments of a call. Three dots alone stand for all of them. -/
def arguments (g : Grammar) : Parser Node := do
  let opening ← operator "("
  let placeholder ← optional do
    let dots ← operator "..."
    guard ((← peekOperator) == ")")
    return (← read).leaf .variadicPlaceholder dots.start dots.stop
  match placeholder with
  | some dots => span .arguments [opening, dots, ← operator ")"]
  | none =>
    let items ← commaList (do return [← argument g]) ")"
    span .arguments (opening :: items ++ [← operator ")"])

def attributeItem (g : Grammar) : Parser Node := do
  let n ← anyName
  if (← peekOperator) == "(" then span .attributeUse [n, ← arguments g] else span .attributeUse [n]

/-- The attributes in front of a declaration, if any. -/
def attributes (g : Grammar) : Parser (List Node) := do
  let groups ← many do
    if (← peekOperator) == "#[" then
      let opening ← operator "#["
      let items ← commaList (do return [← attributeItem g]) "]"
      return some [← span .attributeGroup (opening :: items ++ [← operator "]"])]
    else return none
  if groups.isEmpty then return [] else return [← span .attributeList groups]

/-- Types that are no classes. -/
def primitiveTypes : List String :=
  ["array", "callable", "iterable", "bool", "float", "int", "string", "void", "mixed", "false",
    "null", "true", "never", "static"]

def atomicType : Parser Node := do
  if primitiveTypes.contains (← peekWord) then word .primitiveType
  else span .namedType [← anyName]

/-- Whether an ampersand here joins types, and does not mark a reference. -/
def joinsTypes : Parser Bool :=
  succeeds do
    let _ ← operator "&"
    let next ← peekOperator
    guard (next != "$" && next != "..." && next != "&")

/-- Atoms joined by bars and ampersands, in groups of parentheses. A closing parenthesis belongs to
the type only if the type opened it. -/
def typeRest (depth : Nat) (acc : List Node) : Nat → Parser (List Node)
  | 0 => return acc
  | fuel + 1 => do
    let op ← peekOperator
    if op == "(" then typeRest (depth + 1) (acc ++ [← operator "("]) fuel
    else if op == ")" && depth != 0 then typeRest (depth - 1) (acc ++ [← operator ")"]) fuel
    else if op == "|" then typeRest depth (acc ++ [← operator "|"]) fuel
    else if op == "&" then
      if ← joinsTypes then typeRest depth (acc ++ [← operator "&"]) fuel else return acc
    else if needsAtom acc && (op == "\\" || (← peekWord) != "") then
      typeRest depth (acc ++ [← atomicType]) fuel
    else return acc
where
  needsAtom (acc : List Node) : Bool :=
    match acc.getLast? with
    | none => true
    | some n => n.kind == .token && n.text != ")"

def type : Parser Node := do
  if (← peekOperator) == "?" then
    span .optionalType [← operator "?", ← atomicType]
  else
    match ← typeRest 0 [] ((← read).size + 1) with
    | [] => stuck
    | [t] => return t
    | ts => span .unionType ts

def returnType : Parser (List Node) := do
  if (← peekOperator) == ":" then return [← operator ":", ← type] else return []

/-- The words that may stand before a member or a promoted parameter. -/
def modifierKind? : String → Option Kind
  | "public" | "protected" | "private" => some .visibilityModifier
  | "static" => some .staticModifier
  | "final" => some .finalModifier
  | "abstract" => some .abstractModifier
  | "readonly" => some .readonlyModifier
  | "var" => some .varModifier
  | _ => none

/-- The mark that a word holds for writing only. -/
def writeOnly : Parser (List Node) := do
  return [← operator "(", ← keyword "set", ← operator ")"]

def modifiers : Parser (List Node) :=
  many do
    match modifierKind? (← peekWord) with
    | some .visibilityModifier =>
      let marked ← succeeds do
        let _ ← word .visibilityModifier
        writeOnly
      if marked then
        let w ← word .token
        return some [← span .visibilityModifier (w :: (← writeOnly))]
      else return some [← word .visibilityModifier]
    | some k => return some [← word k]
    | none => return none

def reference : Parser (List Node) := do
  if (← peekOperator) == "&" then return [← span .referenceModifier [← operator "&"]]
  else return []

/-- A default value. -/
def default (g : Grammar) : Parser (List Node) := do
  if (← peekOperator) == "=" then return [← operator "=", ← g.expression] else return []

def parameter (g : Grammar) : Parser Node := do
  let attrs ← attributes g
  let mods ← modifiers
  let op ← peekOperator
  let ty ←
    if op == "&" || op == "..." || op == "$" then pure []
    else (do return [(← type).withRole .type])
  let ref ← reference
  let dots ← operator? "..."
  let v ← variableName
  let value ← default g
  let k : Kind :=
    if !mods.isEmpty then .propertyPromotionParameter
    else if !dots.isEmpty then .variadicParameter
    else .simpleParameter
  span k (attrs ++ mods ++ ty ++ ref ++ dots ++ [v.withRole .name] ++ value)

def parameters (g : Grammar) : Parser Node := do
  let opening ← operator "("
  let items ← commaList (do return [← parameter g]) ")"
  span .formalParameters (opening :: items ++ [← operator ")"])

end PluginAudit.Php.Grammar
