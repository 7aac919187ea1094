import PluginAudit.Proofs.ReturnChains
import PluginAudit.Proofs.Traversals
import PluginAudit.Proofs.Visits

namespace PluginAudit.Php

open Detect

namespace Site

mutual

/-- The site and all below it that belong to the same function body. -/
def scopeFrom (owner : Option Node) (parent : Option Kind) : Node → List Site
  | .mk k r s e l t cs =>
    ⟨.mk k r s e l t cs, owner, parent⟩ ::
      if Node.closesScope k then [] else scopeAll (ownerBelow owner (.mk k r s e l t cs)) k cs

def scopeAll (owner : Option Node) (parent : Kind) : List Node → List Site
  | [] => []
  | c :: cs => scopeFrom owner (some parent) c ++ scopeAll owner parent cs

end

/-- All sites below a site that belong to the same function body. -/
def scope (s : Site) : List Site :=
  scopeAll (ownerBelow s.owner s.node) s.node.kind s.node.children

/-- The code of a function or method itself, without that of functions and classes inside it. -/
def ownCode (s : Site) : List Site :=
  match s.node.child? .body with
  | none => []
  | some body => (s.below body).scope

mutual

theorem map_node_scopeFrom (owner : Option Node) (parent : Option Kind) :
    ∀ n : Node, (scopeFrom owner parent n).map Site.node = n.scopeFrom
  | .mk k r s e l t cs => by
    rw [scopeFrom, Node.scopeFrom, List.map_cons]
    split
    case isTrue => rfl
    case isFalse => rw [map_node_scopeAll]

theorem map_node_scopeAll (owner : Option Node) (parent : Kind) :
    ∀ ns : List Node, (scopeAll owner parent ns).map Site.node = Node.scopeAll ns
  | [] => rfl
  | n :: ns => by
    rw [scopeAll, Node.scopeAll, List.map_append, map_node_scopeFrom, map_node_scopeAll]

end

theorem map_node_scope (s : Site) : s.scope.map Site.node = s.node.scope := by
  rw [Node.scope_eq]
  exact map_node_scopeAll _ _ _

mutual

theorem scopeFrom_subset (owner : Option Node) (parent : Option Kind) :
    ∀ n : Node, scopeFrom owner parent n ⊆ sitesOf owner parent n
  | .mk k r s e l t cs => by
    rw [scopeFrom, sitesOf]
    apply List.cons_subset_cons
    split
    case isTrue => exact List.nil_subset _
    case isFalse => exact scopeAll_subset _ _ cs

theorem scopeAll_subset (owner : Option Node) (parent : Kind) :
    ∀ ns : List Node, scopeAll owner parent ns ⊆ sitesOfAll owner parent ns
  | [] => List.nil_subset _
  | n :: ns => by
    rw [scopeAll, sitesOfAll]
    exact List.append_subset.2 ⟨List.subset_append_of_subset_left _ (scopeFrom_subset _ _ n),
      List.subset_append_of_subset_right _ (scopeAll_subset _ _ ns)⟩

end

theorem scope_subset (s : Site) : s.scope ⊆ s.preorder := by
  obtain ⟨⟨k, r, b, e, l, t, cs⟩, owner, parent⟩ := s
  exact List.Subset.trans (scopeAll_subset _ k cs) (List.subset_cons_self _ _)

theorem ownCode_subset (s : Site) : s.ownCode ⊆ s.preorder := by
  intro x hx
  rw [ownCode] at hx
  split at hx
  case h_1 => cases hx
  case h_2 body hbody =>
    have hbelow := s.mem_preorder_below (Node.mem_children_of_child? hbody)
    exact mem_preorder_trans hbelow (scope_subset _ hx)

end Site

/-- The members of a class that is written where its object is created return only inside functions
of their own. -/
def Node.CreatesPlainly (n : Node) : Prop :=
  n.kind = .objectCreationExpression → (n.children.any fun c => c.kind == .declarationList) = true →
    ∀ r ∈ n.scope, r.kind ≠ .returnStatement

/-- What the grammar says about the code of classes: the bodies of classes and methods are blocks,
and no `return` stands among the members of a class. -/
structure Script.Regular (s : Script) : Prop where
  bodies : ∀ n ∈ s.root.preorder, n.kind.isClassLike = true ∨ n.kind = .methodDeclaration →
    ∀ body, n.child? .body = some body →
      body.kind ∈ [.compoundStatement, .declarationList, .enumDeclarationList]
  creations : ∀ n ∈ s.root.preorder, n.CreatesPlainly

namespace Site

theorem ownerBelow_of_block {n : Node} (owner : Option Node)
    (h : n.kind ∈ [.compoundStatement, .declarationList, .enumDeclarationList]) :
    ownerBelow owner n = owner := by
  simp only [List.mem_cons, List.not_mem_nil, or_false] at h
  obtain h | h | h := h <;> simp [ownerBelow, h, Kind.isClassLike]

/-- Inside a function body the owner changes only where an object of a new class is created. -/
theorem ownerBelow_cases (owner : Option Node) {n : Node} (h : Node.closesScope n.kind = false) :
    ownerBelow owner n = owner ∨ n.kind = .objectCreationExpression ∧
      (n.children.any fun c => c.kind == .declarationList) = true := by
  simp only [Node.closesScope, Bool.or_eq_false_iff] at h
  obtain ⟨⟨-, hclass⟩, hanonymous⟩ := h
  simp only [ownerBelow, hclass, hanonymous, Bool.false_or, Bool.false_eq_true, if_false]
  split
  case isTrue hcreation =>
    rw [Bool.and_eq_true, beq_iff_eq] at hcreation
    exact .inr hcreation
  case isFalse => exact .inl rfl

mutual

theorem owner_scopeFrom (owner : Option Node) (parent : Option Kind) : ∀ n : Node,
    (∀ m ∈ n.preorder, m.CreatesPlainly) → ∀ x ∈ scopeFrom owner parent n,
      x.node.kind = .returnStatement → x.owner = owner
  | .mk k r s e l t cs, h, x, hx, hreturn => by
    rw [scopeFrom, List.mem_cons] at hx
    obtain rfl | hx := hx
    · rfl
    split at hx
    case isTrue => cases hx
    case isFalse hopen =>
      have hcs : ∀ m ∈ Node.preorderAll cs, m.CreatesPlainly :=
        fun m hm => h m (List.mem_cons_of_mem _ hm)
      have howner := owner_scopeAll _ k cs hcs x hx hreturn
      have hopen : Node.closesScope (Node.mk k r s e l t cs).kind = false := by
        rw [Node.kind]
        simpa using hopen
      obtain hsame | ⟨hkind, hlist⟩ := ownerBelow_cases owner hopen
      · rw [howner, hsame]
      · have hscope : x.node ∈ (Node.mk k r s e l t cs).scope := by
          rw [Node.scope_eq, ← map_node_scopeAll]
          exact List.mem_map_of_mem hx
        exact absurd hreturn (h _ (Node.mem_preorder_self _) hkind hlist _ hscope)

theorem owner_scopeAll (owner : Option Node) (parent : Kind) : ∀ ns : List Node,
    (∀ m ∈ Node.preorderAll ns, m.CreatesPlainly) → ∀ x ∈ scopeAll owner parent ns,
      x.node.kind = .returnStatement → x.owner = owner
  | [], _, x, hx, _ => by cases hx
  | n :: ns, h, x, hx, hreturn => by
    rw [Node.preorderAll] at h
    rw [scopeAll, List.mem_append] at hx
    obtain hx | hx := hx
    · exact owner_scopeFrom owner (some parent) n
        (fun m hm => h m (List.mem_append_left _ hm)) x hx hreturn
    · exact owner_scopeAll owner parent ns
        (fun m hm => h m (List.mem_append_right _ hm)) x hx hreturn

end

end Site

open CallGraph in
/-- A site of a script declares a function, or a member of a named class that is a method, with the
definition that the call graph keeps of it. -/
inductive Script.Declares (s : Script) : Site → Definition → Prop where
  | function {site : Site} (mem : site ∈ (Site.root s.root).preorder)
      (kind : site.node.kind = .functionDefinition) :
      Declares s site ⟨Text.lower (qualified s site.node (textOf (site.node.child? .name))),
        site.node, s.path, s.names, ""⟩
  | method {cls : Site} {body m : Node} (mem : cls ∈ (Site.root s.root).preorder)
      (kind : cls.node.kind.isClassLike = true) (named : textOf (cls.node.child? .name) ≠ "")
      (holds : cls.node.child? .body = some body) (member : m ∈ body.namedChildren)
      (isMethod : m.kind = .methodDeclaration) :
      Declares s ((cls.below body).below m) ⟨Text.lower (textOf (m.child? .name)), m, s.path,
        s.names, keyOf s cls.node⟩

namespace Script.Declares

variable {s : Script} {site : Site} {d : Definition}

theorem names (h : s.Declares site d) : d.names = s.names := by
  cases h <;> rfl

theorem node (h : s.Declares site d) : d.node = site.node := by
  cases h <;> rfl

theorem mem_preorder (h : s.Declares site d) : site ∈ (Site.root s.root).preorder := by
  cases h with
  | function mem => exact mem
  | @method cls body m mem kind named holds member =>
    have hbody := cls.mem_preorder_below (Node.mem_children_of_child? holds)
    have hmember := (cls.below body).mem_preorder_below (Node.mem_children_of_named member)
    exact Site.mem_preorder_trans mem (Site.mem_preorder_trans hbody hmember)

/-- Every expression that a definition returns is that of a `return` in its own code. -/
theorem exists_return (h : s.Declares site d) {e : Node} (he : e ∈ d.returns) :
    ∃ r ∈ site.ownCode, r.node.kind = .returnStatement ∧ r.node.returned? = some e := by
  rw [Definition.returns, h.node] at he
  rw [Site.ownCode]
  cases hbody : site.node.child? .body with
  | none => simp [hbody] at he
  | some body =>
    simp only [hbody, List.mem_filterMap, List.mem_filter, beq_iff_eq] at he
    obtain ⟨n, ⟨hn, hkind⟩, hreturned⟩ := he
    have hscope : n ∈ (site.below body).scope.map Site.node := by
      rw [Site.map_node_scope]
      exact hn
    obtain ⟨r, hr, rfl⟩ := List.mem_map.1 hscope
    exact ⟨r, hr, hkind, hreturned⟩

/-- In a regular script the returns of a method belong to the class that declares it. -/
theorem currentClass_eq (h : s.Declares site d) (hmethod : d.node.kind = .methodDeclaration)
    (hs : s.Regular) {r : Site} (hr : r ∈ site.ownCode) (hkind : r.node.kind = .returnStatement)
    {c : Context} (hc : c.script = s) : c.currentClass r = d.className := by
  have hsite := h.mem_preorder
  cases h with
  | function mem kind => simp [kind] at hmethod
  | @method cls body m mem kind named holds member isMethod =>
    have hcls : cls.node ∈ s.root.preorder := by
      rw [← Site.map_node_preorder]
      exact List.mem_map_of_mem mem
    have hm : m ∈ s.root.preorder := by
      rw [← Site.map_node_preorder]
      exact List.mem_map_of_mem hsite
    have hbodyOwner : (cls.below body).owner = some cls.node := by
      simp [Site.below, Site.ownerBelow, kind]
    have hmOwner : ((cls.below body).below m).owner = some cls.node := by
      rw [Site.below, ← hbodyOwner]
      exact Site.ownerBelow_of_block _ (hs.bodies _ hcls (.inl kind) body holds)
    rw [Site.ownCode] at hr
    split at hr
    case h_1 => cases hr
    case h_2 code hcode =>
      have hcode : m.child? .body = some code := hcode
      have hblock := hs.bodies m hm (.inr isMethod) code hcode
      -- neither the method nor its block opens another class
      have hcodeOwner : Site.ownerBelow (((cls.below body).below m).below code).owner code =
          some cls.node := by
        rw [Site.ownerBelow_of_block _ hblock, Site.below, hmOwner]
        simp [Site.ownerBelow, Site.below, isMethod, Kind.isClassLike]
      have hplain : ∀ x ∈ Node.preorderAll code.children, x.CreatesPlainly := by
        intro x hx
        apply hs.creations
        have hxcode : x ∈ code.preorder := by
          rw [Node.preorder_eq]
          exact List.mem_cons_of_mem _ hx
        have hcodem := Node.mem_preorder_of_child (Node.mem_children_of_child? hcode)
        exact Node.mem_preorder_trans _ hm (Node.mem_preorder_trans _ hcodem hxcode)
      have howner : r.owner = some cls.node := by
        rw [← hcodeOwner]
        exact Site.owner_scopeAll _ _ _ hplain r hr hkind
      cases hname : cls.node.child? .name with
      | none => simp [CallGraph.textOf, hname] at named
      | some name =>
        simp [Context.currentClass, howner, hname, hc, CallGraph.keyOf, CallGraph.textOf]

end Script.Declares

namespace CallGraph

/-- What the graph holds is declared by the scripts: functions outside of all classes, methods in
theirs. -/
structure Declared (scripts : List Script) (g : CallGraph) : Prop where
  functions : ∀ key d, g.functions.find? key = some d →
    ∃ s ∈ scripts, ∃ site, s.Declares site d ∧ d.className = ""
  methods : ∀ key table, g.methods.find? key = some table → ∀ name d, table.find? name = some d →
    ∃ s ∈ scripts, ∃ site, s.Declares site d ∧ d.node.kind = .methodDeclaration

variable {scripts : List Script} {g : CallGraph} {s : Script} {n : Node}

theorem Declared.addFunction (hg : g.Declared scripts) (hs : s ∈ scripts)
    (hn : n ∈ s.root.preorder) (hkind : n.kind = .functionDefinition) :
    (g.addFunction s n).Declared scripts := by
  unfold CallGraph.addFunction
  dsimp only
  split
  next => exact hg
  next =>
    refine ⟨fun key d h => ?_, hg.methods⟩
    obtain ⟨-, rfl⟩ | h := Table.find?_putNew_cases h
    · obtain ⟨site, hsite, rfl⟩ := Site.exists_site hn
      exact ⟨s, hs, site, .function hsite hkind, rfl⟩
    · exact hg.functions key d h

theorem Declared.addEntry (hg : g.Declared scripts) (key : String) :
    Declared scripts { g with methods := g.methods.putNew key [] } := by
  refine ⟨hg.functions, fun cls table h name d hd => ?_⟩
  obtain ⟨-, rfl⟩ | h := Table.find?_putNew_cases h
  · cases hd
  · exact hg.methods cls table h name d hd

theorem Declared.addParent (hg : g.Declared scripts) (s : Script) (key : String) (clause : Node) :
    (addParent s key g clause).Declared scripts := by
  unfold CallGraph.addParent
  split
  next => exact ⟨hg.functions, hg.methods⟩
  next => exact hg

theorem Declared.addMember {key : String} {m : Node} (hg : g.Declared scripts)
    (hdeclares : m.kind = .methodDeclaration → ∃ s' ∈ scripts, ∃ site, s'.Declares site
      ⟨Text.lower (textOf (m.child? .name)), m, s.path, s.names, key⟩) :
    (addMember s key g m).Declared scripts := by
  unfold CallGraph.addMember
  split
  next hkind =>
    dsimp only
    split
    next => exact hg
    next =>
      refine ⟨hg.functions, fun cls table h name d hd => ?_⟩
      obtain ⟨-, rfl⟩ | h := Table.find?_put_cases h
      · obtain ⟨-, rfl⟩ | hd := Table.find?_putNew_cases hd
        · obtain ⟨s', hs', site, hsite⟩ := hdeclares hkind
          exact ⟨s', hs', site, hsite, hkind⟩
        · cases ht : g.methods.find? key with
          | none => simp [ht] at hd
          | some table => exact hg.methods key table ht name d (by simpa [ht] using hd)
      · exact hg.methods cls table h name d hd
  next =>
    dsimp only
    split
    next => exact hg
    next => exact ⟨hg.functions, hg.methods⟩
  next => exact hg

theorem declared_ofScripts (policy : Policy) (maxDepth : Int) (scripts : List Script) :
    (ofScripts policy maxDepth scripts).Declared scripts := by
  apply ofScripts_induction
  · constructor
    · intro key d h
      cases h
    · intro key table h
      cases h
  · exact fun g s hs n hn hkind hg => hg.addFunction hs hn hkind
  · intro g s hs n hn hkind hg
    obtain ⟨cls, hcls, rfl⟩ := Site.exists_site hn
    apply addClass_induction hg
    · exact fun g hg => hg.addEntry _
    · exact fun g clause hg => hg.addParent s _ clause
    · intro g body hbody hnamed m hm hg
      exact hg.addMember fun hmethod =>
        ⟨s, hs, _, .method hcls hkind hnamed hbody hm hmethod⟩

/-- A definition that a query resolves to is declared by one of the scripts; at its own returns the
detectors see its class, unless it is a function and a class of no name has a parent. -/
theorem Declared.of_definition? (hg : g.Declared scripts) (hscripts : ∀ s ∈ scripts, s.Regular)
    {t : Target} (hkey : ∀ name, t = .function name → g.parents.find? "" = none) {d : Definition}
    (hd : g.definition? t = some d) :
    ∃ s ∈ scripts, ∃ site, s.Declares site d ∧ ∀ r ∈ site.ownCode,
      r.node.kind = .returnStatement → ∀ c : Context, c.script = s →
        c.currentClass r = d.className ∨ d.className = "" ∧ g.parents.find? "" = none := by
  cases t with
  | function name =>
    obtain ⟨s, hs, site, hsite, hclass⟩ := hg.functions _ d hd
    exact ⟨s, hs, site, hsite, fun _ _ _ _ _ => .inr ⟨hclass, hkey name rfl⟩⟩
  | method className name =>
    obtain ⟨cls, table, ht, hfind⟩ := exists_table_of_searchMethod hd
    obtain ⟨s, hs, site, hsite, hkind⟩ := hg.methods cls table ht _ d hfind
    refine ⟨s, hs, site, hsite, fun r hr hreturn c hc => .inl ?_⟩
    exact hsite.currentClass_eq hkind (hscripts s hs) hr hreturn hc

end CallGraph

end PluginAudit.Php
