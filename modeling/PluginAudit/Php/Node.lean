import PluginAudit.Php.Kind

namespace PluginAudit.Php

/-- A node covers the bytes from `start` up to `stop`, which read as `text`; `line` counts from one
and is that of the first byte. -/
inductive Node where
  | mk (kind : Kind) (role : Option Role) (start stop line : Nat) (text : String)
      (children : List Node)
  deriving Inhabited

namespace Node

def kind : Node → Kind
  | mk k .. => k

def role : Node → Option Role
  | mk _ r .. => r

def start : Node → Nat
  | mk _ _ s .. => s

def stop : Node → Nat
  | mk _ _ _ e .. => e

def line : Node → Nat
  | mk _ _ _ _ l .. => l

def text : Node → String
  | mk _ _ _ _ _ t _ => t

def children : Node → List Node
  | mk _ _ _ _ _ _ cs => cs

def withRole (r : Role) : Node → Node
  | mk k _ s e l t cs => mk k (some r) s e l t cs

def isNamed (n : Node) : Bool :=
  n.kind.isNamed

def isName (n : Node) : Bool :=
  n.kind.isName

/-- The children that are no bare tokens. -/
def namedChildren (n : Node) : List Node :=
  n.children.filter isNamed

/-- The first child that plays the role. -/
def child? (n : Node) (r : Role) : Option Node :=
  n.children.find? fun c => c.role == some r

mutual

/-- The node and all below it, each before its children. -/
def preorder : Node → List Node
  | mk k r s e l t cs => mk k r s e l t cs :: preorderAll cs

def preorderAll : List Node → List Node
  | [] => []
  | c :: cs => preorder c ++ preorderAll cs

end

/-- Whether the traversal of a function's own code stops at a node of this kind. -/
def closesScope (k : Kind) : Bool :=
  k.isFunctionLike || k.isClassLike || k == .anonymousClass

mutual

/-- The number of nodes in a tree. -/
def size : Node → Nat
  | mk _ _ _ _ _ _ cs => sizeAll cs + 1

def sizeAll : List Node → Nat
  | [] => 0
  | c :: cs => size c + sizeAll cs

end

/-- A traversal of a function's own code: the nodes that it has met, the last one first, and those
that wait, the next one first. -/
structure Traversal where
  met : List Node
  waiting : List Node

namespace Traversal

/-- The traversal of what is below a node, before its first step. -/
def below (n : Node) : Traversal :=
  ⟨[], n.children⟩

/-- Meets the next node. What is right below it comes before all that wait, unless the node closes
the scope. -/
def step (t : Traversal) : Traversal :=
  match t.waiting with
  | [] => t
  | n :: rest => ⟨n :: t.met, (if closesScope n.kind then [] else n.children) ++ rest⟩

def run : Nat → Traversal → Traversal
  | 0, t => t
  | steps + 1, t => t.step.run steps

end Traversal

/-- All below a node that belongs to the same function body. There are no more steps than nodes. -/
def scope (n : Node) : List Node :=
  ((Traversal.below n).run (sizeAll n.children)).met.reverse

mutual

/-- The tokens of a tree in source order: strings are whole, comments are left out. -/
def leaves : Node → List Node
  | mk k r s e l t cs =>
    if k == .comment then []
    else if k.isString || cs.isEmpty then (if s < e then [mk k r s e l t cs] else [])
    else leavesAll cs

def leavesAll : List Node → List Node
  | [] => []
  | c :: cs => leaves c ++ leavesAll cs

end

/-- The node inside any parentheses around it. -/
def unwrap : Node → Node
  | mk k r s e l t cs =>
    if k == .parenthesizedExpression then inner (mk k r s e l t cs) cs else mk k r s e l t cs
where
  inner (whole : Node) : List Node → Node
    | [] => whole
    | c :: cs => if c.isNamed then unwrap c else inner whole cs

/-- Whether a fault of the source is recorded at or below the node. -/
def hasError (n : Node) : Bool :=
  n.preorder.any fun m => m.kind == .error

end Node

end PluginAudit.Php
