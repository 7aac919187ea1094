import PluginAudit.Proofs.AliasedGraphs
import PluginAudit.Proofs.InsideAssignments

namespace PluginAudit.Php

open Detect

variable {a : Alias} {names names' : Names}

namespace Facts

/-- The same is known of the variables, but for the expressions that they hold. -/
structure Alike (f f' : Facts) : Prop where
  values : f.values = f'.values
  classLiterals : f.classLiterals = f'.classLiterals
  types : f.types = f'.types

variable {f f' : Facts} {n n' : Node} (hf : f.Alike f')

include hf

theorem Alike.describePart (hn : Node.Alike a n n') : f.describePart n = f'.describePart n' := by
  rw [Facts.describePart, Facts.describePart, hn.literal?, hn.superglobal?, hn.plainVariable?,
    hf.values]

theorem Alike.describe (hn : Node.Alike a n n') : f.describe n = f'.describe n' := by
  have hu := hn.unwrap
  have hparts : n.unwrap.concatParts.map f.describePart =
      n'.unwrap.concatParts.map f'.describePart :=
    map_eq_of_forall₂ (fun _ _ hc => hf.describePart hc) hu.concatParts
  rw [Facts.describe, Facts.describe, hu.literal?, hu.superglobal?, hu.isConcat, hparts]

theorem Alike.forget (name : String) : (f.forget name).Alike (f'.forget name) := by
  constructor
  · rw [Facts.forget, Facts.forget, hf.values]
  · rw [Facts.forget, Facts.forget, hf.classLiterals]
  · rw [Facts.forget, Facts.forget, hf.types]

theorem Alike.putValue (name v : String) :
    Alike { f with values := f.values.put name v } { f' with values := f'.values.put name v } :=
  { hf with values := by rw [hf.values] }

theorem Alike.putClassLiteral (name v : String) :
    Alike { f with classLiterals := f.classLiterals.put name v }
      { f' with classLiterals := f'.classLiterals.put name v } :=
  { hf with classLiterals := by rw [hf.classLiterals] }

theorem Alike.putType (name v : String) :
    Alike { f with types := f.types.put name v } { f' with types := f'.types.put name v } :=
  { hf with types := by rw [hf.types] }

theorem Alike.learnClass (hnames : names.KnowAs a names') (hn : Node.Alike a n n')
    (name : String) : (f.learnClass names name n).Alike (f'.learnClass names' name n') := by
  rw [Facts.learnClass, Facts.learnClass, ← hn.kind]
  split
  case h_1 hk =>
    have hchildren := hn.namedChildren_of_ne (by rw [hk]; decide)
    revert hchildren
    generalize n.namedChildren = cs
    generalize n'.namedChildren = cs'
    intro hchildren
    match hchildren with
    | .nil => exact hf
    | .cons _ .nil => exact hf
    | .cons _ (.cons _ (.cons _ _)) => exact hf
    | .cons (a := cls) (b := cls') hcls (.cons hconst .nil) =>
      dsimp only
      rw [hconst.sameWord.lower.beq (by decide), ← Node.Alike.isName (.inl hcls)]
      split
      case isTrue hclass =>
        rw [Bool.and_eq_true] at hclass
        rw [← hcls.text_of_isName hclass.2, hnames.resolveClass n.start n'.start]
        exact hf.putClassLiteral name _
      case isFalse => exact hf
  case h_2 hk =>
    obtain ⟨hc, hc'⟩ | ⟨cls, cls', hc, hc', hcls⟩ := rel_cases (hn.createdClass? hk)
    · rw [hc, hc']
      exact hf
    · rw [hc, hc']
      have hheld : cls.plainVariable?.bind f.classLiterals.find? =
          cls'.plainVariable?.bind f'.classLiterals.find? := by
        rw [Node.Alike.plainVariable? (.inl hcls), hf.classLiterals]
      dsimp only
      rw [← Node.Alike.isName (.inl hcls), ← hheld]
      split
      case isTrue hname =>
        rw [← hcls.text_of_isName hname, hnames.resolveClass n.start n'.start]
        exact hf.putType name _
      case isFalse =>
        split
        case h_1 => exact hf.putType name _
        case h_2 => exact hf
  case h_3 => exact hf

theorem Alike.learnValue (hn : Node.Alike a n n') (name : String) :
    (assign.learnValue name n f).Alike (assign.learnValue name n' f') := by
  rw [assign.learnValue, assign.learnValue, hf.describe hn]
  split
  case h_1 => exact hf.putValue name _
  case h_2 => exact hf

theorem Alike.copied (source name : String) :
    Alike { f with
        values := copy f.values source name
        classLiterals := copy f.classLiterals source name
        types := copy f.types source name }
      { f' with
        values := copy f'.values source name
        classLiterals := copy f'.classLiterals source name
        types := copy f'.types source name } := by
  constructor
  · exact congrArg (copy · source name) hf.values
  · exact congrArg (copy · source name) hf.classLiterals
  · exact congrArg (copy · source name) hf.types

end Facts

namespace Site

/-- The sites of two nodes in the same place of both trees. -/
structure Alike (a : Alias) (s s' : Site) : Prop where
  node : Node.Alike a s.node s'.node
  owner : Option.Rel (fun n n' => Node.Alike a n n' ∧ n.kind.isClassLike = true) s.owner s'.owner

variable {s s' : Site} (hs : s.Alike a s')

include hs

theorem Alike.at_ {n n' : Node} (hn : Node.Alike a n n') : (s.at_ n).Alike a (s'.at_ n') :=
  ⟨hn, hs.owner⟩

theorem Alike.unwrap : s.unwrap.Alike a s'.unwrap :=
  hs.at_ hs.node.unwrap

theorem Alike.child? (r : Role) : Option.Rel (Alike a) (s.child? r) (s'.child? r) :=
  rel_map (hs.node.child? r) fun _ _ _ hn => hs.at_ hn

omit hs in
theorem sitesOf_eq (owner : Option Node) (parent : Option Kind) (n : Node) :
    sitesOf owner parent n =
      ⟨n, owner, parent⟩ :: n.children.flatMap (sitesOf (ownerBelow owner n) (some n.kind)) := by
  have hall (owner : Option Node) (parent : Kind) (ns : List Node) :
      sitesOfAll owner parent ns = ns.flatMap (sitesOf owner (some parent)) := by
    induction ns with
    | nil => rfl
    | cons n ns ih => rw [sitesOfAll, ih, List.flatMap_cons]
  obtain ⟨k, r, b, e, l, t, cs⟩ := n
  rw [sitesOf, hall]
  rfl

theorem Alike.ownerBelow : Option.Rel (fun n n' => Node.Alike a n n' ∧ n.kind.isClassLike = true)
    (ownerBelow s.owner s.node) (Site.ownerBelow s'.owner s'.node) := by
  have hbody : (s.node.children.any fun c => c.kind == .declarationList) =
      s'.node.children.any fun c => c.kind == .declarationList :=
    any_eq_of_forall₂ (fun _ _ hc => by rw [Node.Alike.kind hc]) hs.node.children
  rw [Site.ownerBelow, Site.ownerBelow, ← hs.node.kind, hbody]
  split
  case isTrue hclass => exact .some ⟨hs.node, hclass⟩
  case isFalse =>
    split
    case isTrue => exact .none
    case isFalse => exact hs.owner

theorem Alike.preorder : List.Forall₂ (Alike a) s.preorder s'.preorder := by
  obtain ⟨n, owner, parent⟩ := s
  obtain ⟨n', owner', parent'⟩ := s'
  rw [Site.preorder, Site.preorder]
  induction n using Node.childInduction generalizing owner parent n' owner' parent' with
  | step n ih =>
    rw [sitesOf_eq, sitesOf_eq]
    refine .cons hs (rel_flatMap hs.node.children fun c hc c' halike => ?_)
    exact ih c hc _ _ _ _ _ ⟨halike, hs.ownerBelow⟩

end Site

namespace Facts

variable {f f' : Facts} {s s' : Site} (hf : f.Alike f') (hnames : names.KnowAs a names')
  (hs : s.Alike a s')

include hf hnames hs

theorem Alike.assign : (f.assign names s).Alike (f'.assign names' s') := by
  have hleft : (s.node.child? .left).bind Node.plainVariable? =
      (s'.node.child? .left).bind Node.plainVariable? :=
    bind_eq_of_rel (hs.node.child? .left) fun _ _ hn => Node.Alike.plainVariable? hn
  have hright : Option.Rel (Site.Alike a) ((s.child? .right).map Site.unwrap)
      ((s'.child? .right).map Site.unwrap) :=
    rel_map (hs.child? .right) fun _ _ _ hr => hr.unwrap
  rw [Facts.assign, Facts.assign, ← hleft]
  split
  case h_1 => exact hf
  case h_2 name _ =>
    split
    case isTrue => exact hf
    case isFalse =>
      have hforget := hf.forget name
      dsimp only
      obtain ⟨hr, hr'⟩ | ⟨right, right', hr, hr', halike⟩ := rel_cases hright
      · rw [hr, hr']
        exact hforget
      · rw [hr, hr']
        have hheld : Alike { f.forget name with nodes := (f.forget name).nodes.put name right }
            { f'.forget name with nodes := (f'.forget name).nodes.put name right' } :=
          ⟨hforget.values, hforget.classLiterals, hforget.types⟩
        have hlearnt := (hheld.learnClass hnames halike.node name).learnValue halike.node name
        dsimp only
        rw [← halike.node.plainVariable?]
        split
        case h_1 source _ =>
          split
          case isTrue => exact hlearnt
          case isFalse => exact hheld.copied source name
        case h_2 => exact hlearnt

omit hnames in
theorem Alike.append : (f.append s.node).Alike (f'.append s'.node) := by
  have hleft : (s.node.child? .left).bind Node.plainVariable? =
      (s'.node.child? .left).bind Node.plainVariable? :=
    bind_eq_of_rel (hs.node.child? .left) fun _ _ hn => Node.Alike.plainVariable? hn
  have hright : (s.node.child? .right).bind Node.literal? =
      (s'.node.child? .right).bind Node.literal? :=
    bind_eq_of_rel (hs.node.child? .right) fun _ _ hn => Node.Alike.literal? hn
  have hoperator : ((s.node.child? .operator).any fun op => op.text == ".=") =
      (s'.node.child? .operator).any fun op => op.text == ".=" := by
    obtain ⟨ho, ho'⟩ | ⟨op, op', ho, ho', hop⟩ :=
      rel_cases (hs.node.child?_of_ne (r := .operator) (by decide))
    · rw [ho, ho']
    · rw [ho, ho']
      exact hop.sameWord.beq (by decide)
  rw [Facts.append, Facts.append, ← hleft, ← hright, ← hoperator]
  split
  case h_1 => exact hf
  case h_2 name _ =>
    split
    case isTrue => exact hf
    case isFalse =>
      have hknown : f.values.find? name = f'.values.find? name := by rw [hf.values]
      dsimp only
      rw [← hknown]
      split
      case h_1 => exact hf.putValue name _
      case h_2 => exact hf.forget name

theorem Alike.observe : (f.observe names s).Alike (f'.observe names' s') := by
  rw [Facts.observe, Facts.observe, ← hs.node.kind]
  split
  case h_1 => exact hf.assign hnames hs
  case h_2 => exact hf.assign hnames hs
  case h_3 => exact hf.append hs
  case h_4 =>
    have hremoved : s.node.namedChildren.filterMap Node.plainVariable? =
        s'.node.namedChildren.filterMap Node.plainVariable? :=
      filterMap_eq_of_forall₂ (fun _ _ hn => Node.Alike.plainVariable? hn) hs.node.namedChildren
    rw [← hremoved]
    generalize s.node.namedChildren.filterMap Node.plainVariable? = removed
    induction removed generalizing f f' with
    | nil => exact hf
    | cons name removed ih =>
      rw [List.foldl_cons, List.foldl_cons]
      apply ih
      split
      case isTrue => exact hf
      case isFalse => exact hf.forget name
  case h_5 => exact hf

end Facts

/-- Calls of functions and methods. -/
def Kind.isCall : Kind → Bool
  | .functionCallExpression | .memberCallExpression | .nullsafeMemberCallExpression
  | .scopedCallExpression => true
  | _ => false

theorem Kind.isCall_cases {k : Kind} (h : k.isCall = true) :
    k = .functionCallExpression ∨ k = .memberCallExpression ∨
      k = .nullsafeMemberCallExpression ∨ k = .scopedCallExpression := by
  revert h
  cases k <;> simp [isCall]

/-- The visits of calls, in order. -/
def callsAmong (c : Context) (sites : List Site) : List (Context × Site) :=
  (visits c sites).filter fun p => p.2.node.kind.isCall

/-- The calls of a file as a scan of it visits them. -/
def callVisits (policy : Policy) (graph : CallGraph) (s : Script) (extension : Option String)
    (size : Option Nat) : List (Context × Site) :=
  callsAmong (startContext policy graph s extension size) (Site.root s.root).preorder

namespace Detect.Context

/-- What is known at the same place of both files. -/
structure Alike (a : Alias) (c c' : Context) : Prop where
  policy : c.policy = c'.policy
  graph : c.graph.Alike a c'.graph
  names : c.script.names.KnowAs a c'.script.names
  facts : c.facts.Alike c'.facts

variable {c c' : Context}

theorem Alike.observe (hc : c.Alike a c') {s s' : Site} (hs : s.Alike a s') :
    Alike a { c with facts := c.facts.observe c.script.names s }
      { c' with facts := c'.facts.observe c'.script.names s' } :=
  { hc with facts := hc.facts.observe hc.names hs }

/-- Visits of the same place of both files. -/
def AlikeVisits (a : Alias) (p p' : Context × Site) : Prop :=
  p.1.Alike a p'.1 ∧ p.2.Alike a p'.2

theorem Alike.visits {sites sites' : List Site} (hc : c.Alike a c')
    (hs : List.Forall₂ (Site.Alike a) sites sites') :
    List.Forall₂ (AlikeVisits a) (visits c sites) (visits c' sites') := by
  induction hs generalizing c c' with
  | nil => exact .nil
  | cons hs _ ih => exact .cons ⟨hc, hs⟩ (ih (hc.observe hs))

theorem Alike.callsAmong {sites sites' : List Site} (hc : c.Alike a c')
    (hs : List.Forall₂ (Site.Alike a) sites sites') :
    List.Forall₂ (AlikeVisits a) (callsAmong c sites) (callsAmong c' sites') :=
  rel_filter (fun _ _ hp => by rw [hp.2.node.kind]) (hc.visits hs)

theorem Alike.after {sites sites' : List Site} (hc : c.Alike a c')
    (hs : List.Forall₂ (Site.Alike a) sites sites') :
    Alike a { c with facts := c.facts.after c.script.names sites }
      { c' with facts := c'.facts.after c'.script.names sites' } := by
  induction hs generalizing c c' with
  | nil => exact hc
  | cons hs _ ih => exact ih (hc.observe hs)

end Detect.Context

theorem callsAmong_append (c : Context) (earlier later : List Site) :
    callsAmong c (earlier ++ later) = callsAmong c earlier ++
      callsAmong { c with facts := c.facts.after c.script.names earlier } later := by
  rw [callsAmong, visits_append, List.filter_append]
  rfl

theorem Facts.observe_of_inert (f : Facts) (names : Names) {s : Site}
    (hs : s.node.kind.IsInert) : f.observe names s = f := by
  rw [Kind.IsInert] at hs
  simp only [List.mem_cons, List.not_mem_nil, or_false] at hs
  rw [Facts.observe]
  rcases hs with hk | hk | hk | hk | hk <;> rw [hk]

theorem after_of_inert (f : Facts) (names : Names) {sites : List Site}
    (hs : ∀ s ∈ sites, s.node.kind.IsInert) : f.after names sites = f := by
  induction sites with
  | nil => rfl
  | cons s sites ih =>
    obtain ⟨hs, hsites⟩ := List.forall_mem_cons.1 hs
    rw [Facts.after_cons, f.observe_of_inert names hs, ih hsites]

theorem callsAmong_of_inert (c : Context) {sites : List Site}
    (hs : ∀ s ∈ sites, s.node.kind.IsInert) : callsAmong c sites = [] := by
  rw [callsAmong, List.filter_eq_nil_iff]
  intro p hp
  have hk := hs p.2 (of_mem_visits hp).1
  rw [Kind.IsInert] at hk
  simp only [List.mem_cons, List.not_mem_nil, or_false] at hk
  rcases hk with hk | hk | hk | hk | hk <;> rw [hk] <;> decide

theorem callsAmong_inert_append (c : Context) {earlier : List Site}
    (h : ∀ s ∈ earlier, s.node.kind.IsInert) (later : List Site) :
    callsAmong c (earlier ++ later) = callsAmong c later := by
  rw [callsAmong_append, callsAmong_of_inert c h, after_of_inert _ _ h, List.nil_append]

theorem preorder_root {root : Node} (hroot : root.kind = .program) :
    (Site.root root).preorder =
      [Site.root root] ++ root.children.flatMap (Site.sitesOf none (some .program)) := by
  have howner : Site.ownerBelow none root = none := by
    rw [Site.ownerBelow, hroot]
    rfl
  rw [Site.preorder, Site.sitesOf_eq, Site.root, howner, hroot]
  rfl

/-- Both files have the same calls, with the same known at each of them. -/
theorem callVisits_alike {s s' : Script} (ha : a.Proper) (hs : s.Respelled a s')
    {g g' : CallGraph} (hg : g.Alike a g') (policy : Policy) (extension : Option String)
    (size : Option Nat) :
    List.Forall₂ (Detect.Context.AlikeVisits a) (callVisits policy g s extension size)
      (callVisits policy g' s' extension size) := by
  obtain ⟨before, after, before', after', decl, hroot, hroot', hbefore, hafter, hdecl, -, hinner⟩ :=
    hs.trees
  have hsites {ns ns' : List Node} (hns : Node.RespellsAll a .program ns ns') :
      List.Forall₂ (Site.Alike a) (ns.flatMap (Site.sitesOf none (some .program)))
        (ns'.flatMap (Site.sitesOf none (some .program))) :=
    rel_flatMap hns.forall₂ fun n _ n' hn =>
      (show Site.Alike a ⟨n, none, some .program⟩ ⟨n', none, some .program⟩ from
        ⟨hn, .none⟩).preorder
  have hinert {root : Node} (hk : root.kind = .program) :
      ∀ s ∈ [Site.root root], s.node.kind.IsInert :=
    List.forall_mem_singleton.2 (by rw [Site.root, hk]; decide)
  have hnothing : ∀ s ∈ Site.sitesOf none (some .program) decl, s.node.kind.IsInert := by
    intro s hs
    apply Node.isInert_of_import hdecl hinner
    rw [← Site.map_node_sitesOf none (some .program)]
    exact List.mem_map_of_mem hs
  have hstart : (startContext policy g s extension size).Alike a
      (startContext policy g' s' extension size) :=
    ⟨rfl, hg, hs.knowAs ha, rfl, rfl, rfl⟩
  rw [callVisits, callVisits, preorder_root hs.kind.1, preorder_root hs.kind.2,
    callsAmong_inert_append _ (hinert hs.kind.1), callsAmong_inert_append _ (hinert hs.kind.2),
    hroot, hroot', List.flatMap_append, List.flatMap_append, List.flatMap_cons, callsAmong_append,
    callsAmong_append, callsAmong_inert_append _ hnothing]
  apply List.rel_append
  · exact hstart.callsAmong (hsites hbefore)
  · exact (hstart.after (hsites hbefore)).callsAmong (hsites hafter)

end PluginAudit.Php
