import PluginAudit.Php.Script
import PluginAudit.Php.Literal

namespace PluginAudit.Php

/-- Stands for a part of a value that comes from a request. -/
def superglobalMark : String := "\x7bsuperglobal\x7d"

/-- Stands for a part of a value that is not known. -/
def dynamicMark : String := "\x7bdynamic\x7d"

/-- What is known about each variable: its text, the class it names, the class of its object, and
the expression last assigned to it. -/
structure Facts where
  values : Table String
  classLiterals : Table String
  types : Table String
  nodes : Table Site

namespace Facts

def empty : Facts :=
  ⟨[], [], [], []⟩

/-- Nothing is known any more. -/
def reset (f : Facts) : Facts :=
  { f with values := [], classLiterals := [], types := [], nodes := [] }

def forget (f : Facts) (name : String) : Facts :=
  ⟨f.values.erase name, f.classLiterals.erase name, f.types.erase name, f.nodes.erase name⟩

/-- Whether the value of a variable comes from a request. -/
def isSuperglobal (f : Facts) (name : String) : Bool :=
  Text.contains ((f.values.find? name).getD "") superglobalMark

/-- The text of an operand of a concatenation, with marks for what is not known. -/
def describePart (f : Facts) (n : Node) : String :=
  match n.literal? with
  | some s => s
  | none =>
    if n.superglobal?.isSome then superglobalMark
    else match n.plainVariable?.bind f.values.find? with
      | some v => v
      | none => dynamicMark

/-- The text of a literal, a request variable or a concatenation; none for other expressions. -/
def describe (f : Facts) (n : Node) : Option String :=
  let n := n.unwrap
  match n.literal? with
  | some s => some s
  | none =>
    if n.superglobal?.isSome then some superglobalMark
    else if n.isConcat then some (String.join (n.concatParts.map f.describePart))
    else none

/-- Carries an entry of a table over to another name. -/
def copy (t : Table String) (source name : String) : Table String :=
  match t.find? source with
  | some v => t.put name v
  | none => t

/-- What a created object or a class constant tells about the variable that holds it. -/
def learnClass (f : Facts) (names : Names) (name : String) (right : Node) : Facts :=
  match right.kind with
  | .classConstantAccessExpression =>
    match right.namedChildren with
    | [cls, const] =>
      if Text.lower const.text == "class" && cls.isName then
        let full := names.resolveClass cls.text right.start
        { f with classLiterals := f.classLiterals.put name full }
      else f
    | _ => f
  | .objectCreationExpression =>
    match right.createdClass? with
    | none => f
    | some cls =>
      if cls.isName then
        { f with types := f.types.put name (names.resolveClass cls.text right.start) }
      else match cls.plainVariable?.bind f.classLiterals.find? with
        | some held => { f with types := f.types.put name held }
        | none => f
  | _ => f

/-- The facts after an assignment to a plain variable. -/
def assign (f : Facts) (names : Names) (s : Site) : Facts :=
  match (s.node.child? .left).bind Node.plainVariable? with
  | none => f
  | some name =>
    if name == "" then f
    else
      let f := f.forget name
      match (s.child? .right).map Site.unwrap with
      | none => f
      | some right =>
        let f := { f with nodes := f.nodes.put name right }
        match right.node.plainVariable? with
        | some source =>
          if Node.superglobals.contains source then
            f.learnClass names name right.node |> learnValue name right.node
          else
            { f with
              values := copy f.values source name
              classLiterals := copy f.classLiterals source name
              types := copy f.types source name }
        | none => f.learnClass names name right.node |> learnValue name right.node
where
  learnValue (name : String) (right : Node) (f : Facts) : Facts :=
    match f.describe right with
    | some v => { f with values := f.values.put name v }
    | none => f

/-- The facts after an assignment that combines the old value with another. -/
def append (f : Facts) (n : Node) : Facts :=
  match (n.child? .left).bind Node.plainVariable? with
  | none => f
  | some name =>
    if name == "" then f
    else
      let isConcat := (n.child? .operator).any fun op => op.text == ".="
      match isConcat, f.values.find? name, (n.child? .right).bind Node.literal? with
      | true, some known, some extra => { f with values := f.values.put name (known ++ extra) }
      | _, _, _ => f.forget name

/-- The facts after a node has been passed. -/
def observe (f : Facts) (names : Names) (s : Site) : Facts :=
  match s.node.kind with
  | .assignmentExpression | .referenceAssignmentExpression => f.assign names s
  | .augmentedAssignmentExpression => f.append s.node
  | .unsetStatement =>
    (s.node.namedChildren.filterMap Node.plainVariable?).foldl
      (fun f name => if name == "" then f else f.forget name) f
  | _ => f

end Facts

end PluginAudit.Php
