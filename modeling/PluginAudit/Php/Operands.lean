import PluginAudit.Php.Node
import PluginAudit.Text.Case
import PluginAudit.Text.Blank
import PluginAudit.Text.Parts

namespace PluginAudit.Php.Node

/-- The argument values of a call, in order. -/
def argumentValues (call : Node) : List Node :=
  let args : Option Node :=
    match call.child? .arguments with
    | some a => some a
    | none => call.children.find? fun c => c.kind == .arguments
  match args with
  | none => []
  | some a =>
    a.namedChildren.filterMap fun (c : Node) =>
      if c.kind == .argument then c.namedChildren.getLast?
      else if c.kind == .comment then none
      else some c

def firstArgument? (call : Node) : Option Node :=
  call.argumentValues.head?.map unwrap

/-- What is called: a name or an expression. -/
def callee? (call : Node) : Option Node :=
  match call.child? .callee with
  | some f => some f
  | none => call.namedChildren.head?

/-- The operator of a binary expression, in lower case. -/
def operatorText (n : Node) : String :=
  match n.child? .operator with
  | some op => Text.lower op.text
  | none =>
    match n.children.find? fun c => !c.isNamed with
    | some c => Text.lower c.text
    | none => ""

/-- Whether a node concatenates two values. -/
def isConcat (n : Node) : Bool :=
  n.kind == .binaryExpression && n.operatorText == "."

mutual

/-- The operands of a chain of concatenations, without parentheses around them. -/
def concatParts : Node → List Node
  | mk k r s e l t cs =>
    if k == .parenthesizedExpression then partsInside (mk k r s e l t cs) cs
    else if (mk k r s e l t cs).isConcat then sideParts .left cs ++ sideParts .right cs
    else [mk k r s e l t cs]

/-- The operands of the first child that plays the role. -/
def sideParts (side : Role) : List Node → List Node
  | [] => []
  | c :: cs => if c.role == some side then concatParts c else sideParts side cs

/-- The operands of the first named child; the whole node if there is none. -/
def partsInside (whole : Node) : List Node → List Node
  | [] => [whole]
  | c :: cs => if c.isNamed then concatParts c else partsInside whole cs

end

/-- The name of a plain variable, without the dollar sign. -/
def plainVariable? (n : Node) : Option String :=
  let n := n.unwrap
  if n.kind == .variableName then some (Text.trimLeft (· == '$') n.text) else none

/-- What is indexed by a chain of subscripts. -/
def subscriptBase : Node → Node
  | mk k r s e l t cs =>
    if k == .subscriptExpression then first (mk k r s e l t cs) cs else mk k r s e l t cs
where
  first (whole : Node) : List Node → Node
    | [] => whole
    | c :: cs => if c.isNamed then subscriptBase c else first whole cs

/-- The variables that hold the input of a request. -/
def superglobals : List String :=
  ["_GET", "_POST", "_REQUEST", "_COOKIE", "_FILES", "_SESSION", "_SERVER", "_ENV"]

/-- The request variable that an expression reads, with or without an index. -/
def superglobal? (n : Node) : Option String :=
  match n.unwrap.subscriptBase.plainVariable? with
  | some name => if superglobals.contains name then some name else none
  | none => none

/-- Whether `new` creates an object of a class without a name. -/
def isAnonymousCreation (n : Node) : Bool :=
  n.kind == .objectCreationExpression &&
    n.children.any fun c => c.kind == .anonymousClass || c.kind == .declarationList

/-- The class operand of `new`; none for a class without a name. -/
def createdClass? (n : Node) : Option Node :=
  if n.isAnonymousCreation then none
  else n.namedChildren.find? fun c =>
    c.kind != .arguments && c.kind != .attributeList && c.kind != .comment

/-- The expression of a `return`. -/
def returned? (n : Node) : Option Node :=
  n.namedChildren.find? fun c => c.kind != .comment

end PluginAudit.Php.Node
