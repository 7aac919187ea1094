import PluginAudit.Proofs.OwnCode
import PluginAudit.Proofs.ReportedTypes

namespace PluginAudit.Php

open Detect

namespace CallGraph

variable {g : CallGraph}

theorem reaches_succ_iff {steps : Nat} {visited : List String} {t : Target} :
    g.reaches (steps + 1) visited t = true ↔
      t.key ∉ visited ∧ ∃ d, g.definition? t = some d ∧ ∃ e ∈ d.returns,
        g.outcome d e = .forbidden ∨
          ∃ next, g.outcome d e = .follow next ∧ g.reaches steps (t.key :: visited) next = true := by
  rw [reaches]
  by_cases hv : t.key ∈ visited
  · simp [hv]
  simp only [List.contains_iff_mem, hv, if_false, not_false_eq_true, true_and]
  cases hd : g.definition? t with
  | none => simp
  | some d =>
    simp only [Option.some.injEq, exists_eq_left', List.any_eq_true]
    refine exists_congr fun e => and_congr_right fun _ => ?_
    cases g.outcome d e <;> simp

/-- What is found with some steps and some visited definitions is found with more steps and fewer
visited ones. -/
theorem reaches_mono {steps steps' : Nat} {visited visited' : List String} {t : Target}
    (hsteps : steps ≤ steps') (hvisited : visited' ⊆ visited)
    (h : g.reaches steps visited t = true) : g.reaches steps' visited' t = true := by
  induction steps generalizing steps' visited visited' t with
  | zero => cases h
  | succ steps ih =>
    obtain ⟨steps', rfl⟩ :=
      Nat.exists_eq_succ_of_ne_zero (Nat.ne_of_gt (Nat.zero_lt_of_lt hsteps))
    obtain ⟨hnew, d, hd, e, he, hforbidden | ⟨next, hnext, hreach⟩⟩ := reaches_succ_iff.1 h
    · exact reaches_succ_iff.2 ⟨fun hmem => hnew (hvisited hmem), d, hd, e, he, .inl hforbidden⟩
    · have hmore := ih (Nat.le_of_succ_le_succ hsteps) (List.cons_subset_cons _ hvisited) hreach
      exact reaches_succ_iff.2
        ⟨fun hmem => hnew (hvisited hmem), d, hd, e, he, .inr ⟨next, hnext, hmore⟩⟩

/-- A target leads to something forbidden because of one returned expression: it is forbidden, or it
calls a target that leads there in turn. -/
theorem chainsToForbidden_cases {t : Target} (h : g.chainsToForbidden t = true) :
    ∃ d, g.definition? t = some d ∧ ∃ e ∈ d.returns,
      g.IsForbidden d e ∨ ∃ next, g.IsCallOf d e next ∧ g.chainsToForbidden next = true := by
  rw [chainsToForbidden] at h
  cases hsteps : (g.maxDepth + 1).toNat with
  | zero =>
    rw [hsteps] at h
    cases h
  | succ steps =>
    rw [hsteps] at h
    obtain ⟨-, d, hd, e, he, hout⟩ := reaches_succ_iff.1 h
    refine ⟨d, hd, e, he, ?_⟩
    obtain ⟨-, hforbidden⟩ | hharmless | ⟨next, hnext, hcall⟩ := g.outcome_cases d e
    · exact .inl hforbidden
    · simp [hharmless] at hout
    · simp only [hnext, reduceCtorEq, Outcome.follow.injEq, exists_eq_left', false_or] at hout
      refine .inr ⟨next, hcall, reaches_mono ?_ (List.nil_subset _) hout⟩
      rw [hsteps]
      exact Nat.le_succ _

/-- Seen from the code of a class, a double colon leads where it leads from a definition without a
class, unless a class of no name has a parent. -/
theorem scopeClass_eq {cur cls : String} {scope : Option Node} {names : Names}
    (h : cur = cls ∨ cls = "" ∧ g.parents.find? "" = none)
    (hne : g.scopeClass scope cls names ≠ "") :
    g.scopeClass scope cur names = g.scopeClass scope cls names := by
  obtain rfl | ⟨rfl, hparents⟩ := h
  · rfl
  cases scope with
  | none => rfl
  | some n =>
    simp only [scopeClass, hparents, Option.getD_none] at hne ⊢
    split at hne
    case isTrue => exact absurd rfl hne
    case isFalse hself =>
      split at hne
      case isTrue => exact absurd rfl hne
      case isFalse hparent => rw [if_neg hself, if_neg hparent, if_neg hself, if_neg hparent]

end CallGraph

namespace Detect

/-- At a site the detectors see what the call graph knows of a definition: its names, and the class
that it belongs to unless it belongs to none. -/
structure Sees (c : Context) (d : Definition) (s : Site) : Prop where
  policy : c.policy = c.graph.policy
  names : d.names = c.script.names
  className : c.currentClass s = d.className ∨
    d.className = "" ∧ c.graph.parents.find? "" = none

variable {c : Context} {d : Definition} {s : Site} {e : Node}

theorem Sees.report_forbidden (h : Sees c d s) (he : s.node.returned? = some e)
    (hforbidden : c.graph.IsForbidden d e) : ∃ v ∈ returned c s, v.line = s.node.line := by
  have hnode : (s.at_ e.unwrap).node = e.unwrap := rfl
  cases hforbidden with
  | literal text spells forbidden =>
    rw [← h.policy] at forbidden
    simp [returned, he, hnode, spells, forbidden, Context.violation]
  | creation cls kind creates named forbidden =>
    have hliteral := CallGraph.unwrap_literal?_of_kind kind rfl
    rw [← h.policy, h.names] at forbidden
    simp [returned, he, hnode, hliteral, kind, creates, named, forbidden, Context.violation,
      Context.resolveClass]
  | call fn kind calls named forbidden =>
    have hliteral := CallGraph.unwrap_literal?_of_kind kind rfl
    rw [← h.policy, h.names] at forbidden
    simp [returned, he, hnode, hliteral, kind, calls, named, forbidden, Context.violation,
      Context.called?]

theorem exists_mem_returnedMethod {expr : Site} {method : Node} {cls : String}
    (hmethod : expr.node.child? .name = some method) (hkind : method.kind = .name)
    (hcls : returnedClass c expr = cls) (hne : cls ≠ "")
    (hchain : c.graph.chainsToForbidden (.method cls method.text) = true) :
    ∃ v ∈ returnedMethod c s expr, v.line = s.node.line := by
  simp [returnedMethod, hmethod, hkind, hcls, hne, Context.methodChains, hchain, Context.violation]

theorem Sees.report_call (h : Sees c d s) (he : s.node.returned? = some e) {t : CallGraph.Target}
    (hcall : c.graph.IsCallOf d e t) (hchain : c.graph.chainsToForbidden t = true) :
    ∃ v ∈ returned c s, v.line = s.node.line := by
  have hnode : (s.at_ e.unwrap).node = e.unwrap := rfl
  have howner : c.currentClass (s.at_ e.unwrap) = c.currentClass s := rfl
  cases hcall with
  | function fn name kind calls named resolves =>
    have hliteral := CallGraph.unwrap_literal?_of_kind kind rfl
    rw [h.names] at resolves
    simp only [returned, he, hnode, hliteral, kind, Context.called?, calls, named, if_true,
      Context.chainsToForbidden, resolves, hchain]
    split <;> simp [Context.violation]
  | member object method kind on this calls named inside =>
    have hliteral := CallGraph.unwrap_literal?_of_kind kind rfl
    have hclass : returnedClass c (s.at_ e.unwrap) = d.className := by
      obtain hsame | ⟨hnone, -⟩ := h.className
      · simp [returnedClass, hnode, kind, on, this, howner, hsame]
      · exact absurd hnone inside
    simp only [returned, he, hnode, hliteral, kind]
    exact exists_mem_returnedMethod calls named hclass inside hchain
  | static method className kind calls named scope known =>
    have hliteral := CallGraph.unwrap_literal?_of_kind kind rfl
    have hclass : returnedClass c (s.at_ e.unwrap) = className := by
      rw [h.names] at scope
      subst scope
      simp only [returnedClass, hnode, kind, Context.scopeClass, howner]
      exact CallGraph.scopeClass_eq h.className known
    simp only [returned, he, hnode, hliteral, kind]
    exact exists_mem_returnedMethod calls named hclass known hchain

end Detect

section Programs

def word (role : Option Role) (line : Nat) (t : String) : Node :=
  .mk .name role 0 0 line t []

def block (kind : Kind) (line : Nat) (cs : List Node) : Node :=
  .mk kind (some .body) 0 0 line "" cs

def declaration (kind : Kind) (line : Nat) (name : String) (parts : List Node) : Node :=
  .mk kind none 0 0 line "" (word (some .name) line name :: parts)

def returning (line : Nat) (e : Node) : Node :=
  .mk .returnStatement none 0 0 line "" [e]

/-- The expression `parent::x()`. -/
def parentCall : Node :=
  .mk .scopedCallExpression none 0 0 1 "parent::x()"
    [.mk .relativeScope (some .scope) 0 0 1 "parent" [], word (some .name) 1 "x"]

/-- The literal `'eval'`. -/
def evalLiteral : Node :=
  .mk .string none 0 0 2 "'eval'" []

def nestedFunction : Node :=
  declaration .functionDefinition 1 "f" [block .compoundStatement 1 [returning 1 parentCall]]

def outerMethod : Node :=
  declaration .methodDeclaration 1 "m" [block .compoundStatement 1 [nestedFunction]]

def outerClass : Node :=
  declaration .classDeclaration 1 "A" [block .declarationList 1 [outerMethod]]

def evalMethod : Node :=
  declaration .methodDeclaration 2 "x" [block .compoundStatement 2 [returning 2 evalLiteral]]

/-- A function inside a method, and a class without a key that has a parent:
```
class A { function m() { function f() { return parent::x(); } } }
class B { function x() { return 'eval'; } }
class _ extends \B {}
```
In place of the underscore stands an ideographic space, which is a letter of names but is trimmed
from keys. -/
def blankClass : Script where
  path := "a.php"
  source := .ofBytes ByteArray.empty
  names := default
  root := .mk .program none 0 0 1 ""
    [outerClass,
      declaration .classDeclaration 2 "B" [block .declarationList 2 [evalMethod]],
      declaration .classDeclaration 3 "\u3000"
        [.mk .baseClause none 0 0 3 "" [.mk .qualifiedName none 0 0 3 "\\B" []],
          block .declarationList 3 []]]

def evalDefinition : Definition :=
  ⟨"x", evalMethod, "a.php", default, "b"⟩

def nestedDefinition : Definition :=
  ⟨"f", nestedFunction, "a.php", default, ""⟩

/-- The call graph of the script. -/
def blankGraph : CallGraph where
  policy := evalPolicy
  maxDepth := 5
  functions := [("f", nestedDefinition)]
  methods := [("a", [("m", ⟨"m", outerMethod, "a.php", default, "a"⟩)]),
    ("b", [("x", evalDefinition)]), ("", [])]
  parents := [("", "b")]
  traits := []

theorem ofScripts_blankClass : CallGraph.ofScripts evalPolicy 5 [blankClass] = blankGraph := by
  cbv

theorem definition?_evalMethod :
    blankGraph.definition? (.method "b" "x") = some evalDefinition := by
  cbv

theorem outcome_evalLiteral : blankGraph.outcome evalDefinition evalLiteral = .forbidden := by
  have hforbidden : evalPolicy.isForbiddenName "eval" = true := by cbv
  exact CallGraph.outcome_of_isForbidden (.literal "eval" (by decide) hforbidden)

theorem reaches_evalMethod (steps : Nat) {visited : List String} (h : "b::x" ∉ visited) :
    blankGraph.reaches (steps + 1) visited (.method "b" "x") = true := by
  have hkey : (CallGraph.Target.method "b" "x").key = "b::x" := by cbv
  exact CallGraph.reaches_succ_iff.2 ⟨hkey ▸ h, _, definition?_evalMethod, evalLiteral,
    List.mem_singleton_self _, .inl outcome_evalLiteral⟩

theorem regular_blankClass : blankClass.Regular := by
  constructor
  · simp [blankClass, Node.preorder, Node.preorderAll, declaration, block, word, returning,
      outerClass, outerMethod, evalMethod, nestedFunction, parentCall, evalLiteral,
      Kind.isClassLike, Node.kind, Node.child?, Node.children, Node.role]
  · simp [blankClass, Node.preorder, Node.preorderAll, declaration, block, word, returning,
      outerClass, outerMethod, evalMethod, nestedFunction, parentCall, evalLiteral,
      Node.CreatesPlainly, Node.kind]

theorem chains_nestedFunction : blankGraph.chainsToForbidden (.function "f") = true := by
  have hscope : blankGraph.scopeClass (parentCall.child? .scope) "" default = "b" := by cbv
  have hcall : blankGraph.IsCallOf nestedDefinition parentCall (.method "b" "x") :=
    .static (word (some .name) 1 "x") "b" rfl rfl rfl hscope (by decide)
  have hkey : (CallGraph.Target.function "f").key = "f" := by cbv
  have hdefinition : blankGraph.definition? (.function "f") = some nestedDefinition := by cbv
  refine CallGraph.reaches_succ_iff.2 ⟨List.not_mem_nil, _, hdefinition, parentCall,
    List.mem_singleton_self _, ?_⟩
  obtain hfollow | hforbidden := CallGraph.outcome_of_isCallOf hcall
  · exact .inr ⟨_, hfollow, reaches_evalMethod 4 (by rw [hkey]; decide)⟩
  · exact .inl hforbidden

/-- The site of the function inside the method. -/
def nestedSite : Site :=
  ⟨nestedFunction, some outerClass, some .compoundStatement⟩

theorem declares_nestedFunction : blankClass.Declares nestedSite nestedDefinition := by
  have hname : Text.lower (CallGraph.qualified blankClass nestedFunction
      (CallGraph.textOf (nestedFunction.child? .name))) = "f" := by cbv
  have hsite : nestedSite ∈ (Site.root blankClass.root).preorder :=
    List.mem_of_getElem? (i := 7) rfl
  have hdeclares := Script.Declares.function hsite rfl
  rw [show nestedSite.node = nestedFunction from rfl, hname] at hdeclares
  exact hdeclares

/-- Inside the method the detectors look for the parent of its class, which has none. -/
theorem visit_nestedReturn {c : Context} (hgraph : c.graph = blankGraph)
    (hscript : c.script = blankClass) {r : Site} (hr : r ∈ nestedSite.ownCode)
    (hkind : r.node.kind = .returnStatement) : visit c r = [] := by
  let returnSite : Site := ⟨returning 1 parentCall, some outerClass, some .compoundStatement⟩
  let callSite := returnSite.at_ parentCall
  have hcode : nestedSite.ownCode.head? = some returnSite := rfl
  have hothers : ∀ x ∈ nestedSite.ownCode.tail, x.node.kind ≠ .returnStatement := by decide
  have hr : r = returnSite := by
    rw [← List.cons_head?_tail hcode, List.mem_cons] at hr
    exact hr.resolve_right fun hmem => hothers r hmem hkind
  have hclass : c.currentClass callSite = "a" := by
    have hkey : classKey (CallGraph.qualified blankClass outerClass "A") = "a" := by cbv
    rw [← hkey, ← hscript]
    rfl
  have hnone : returnedClass c callSite = "" := by
    have hscope : blankGraph.scopeClass (parentCall.child? .scope) "a" default = "" := by cbv
    have hreturned : returnedClass c callSite =
        c.graph.scopeClass (parentCall.child? .scope) (c.currentClass callSite)
          c.script.names := rfl
    rw [hreturned, hclass, hgraph, hscript]
    exact hscope
  have hvisit : visit c returnSite = returnedMethod c returnSite callSite ++ [] := rfl
  rw [hr, hvisit, List.append_nil, returnedMethod, hnone]
  rfl

end Programs

end PluginAudit.Php
