import PluginAudit.Php.Tree
import PluginAudit.Php.Names

namespace PluginAudit.Php

/-- A parsed source file. -/
structure Script where
  path : String
  source : Source
  root : Node
  names : Names

namespace Script

def ofSource (path : String) (s : Source) : Script :=
  let root := s.tree
  ⟨path, s, root, Names.ofTree root⟩

def ofBytes (path : String) (bytes : ByteArray) : Script :=
  ofSource path (.ofBytes bytes)

/-- The line of the first fault of the source. -/
def firstErrorLine (s : Script) : Nat :=
  match s.root.preorder.find? fun n => n.kind == .error with
  | some n => n.line
  | none => 1

end Script

/-- A node, the class declaration whose code it belongs to, and the kind of its parent. Code in a
class without a name belongs to none. -/
structure Site where
  node : Node
  owner : Option Node
  parent : Option Kind
  deriving Inhabited

namespace Site

def root (n : Node) : Site :=
  ⟨n, none, none⟩

/-- The class that the children of a node belong to. -/
def ownerBelow (owner : Option Node) (n : Node) : Option Node :=
  if n.kind.isClassLike then some n
  else if n.kind == .anonymousClass || (n.kind == .objectCreationExpression &&
      n.children.any fun c => c.kind == .declarationList) then none
  else owner

/-- Another node of the same code. -/
def at_ (s : Site) (n : Node) : Site :=
  { s with node := n }

def unwrap (s : Site) : Site :=
  s.at_ s.node.unwrap

def child? (s : Site) (r : Role) : Option Site :=
  (s.node.child? r).map s.at_

mutual

/-- The sites of a node and all below it, each before its children. -/
def sitesOf (owner : Option Node) (parent : Option Kind) : Node → List Site
  | .mk k r s e l t cs =>
    ⟨.mk k r s e l t cs, owner, parent⟩ ::
      sitesOfAll (ownerBelow owner (.mk k r s e l t cs)) k cs

def sitesOfAll (owner : Option Node) (parent : Kind) : List Node → List Site
  | [] => []
  | c :: cs => sitesOf owner (some parent) c ++ sitesOfAll owner parent cs

end

/-- The site and all below it, each before those below it. -/
def preorder (s : Site) : List Site :=
  sitesOf s.owner s.parent s.node

end Site

end PluginAudit.Php
