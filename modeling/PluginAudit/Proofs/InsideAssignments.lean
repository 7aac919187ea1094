import PluginAudit.Proofs.TrackedWrites

namespace PluginAudit.Php

open Detect

theorem visits_append (c : Context) (earlier later : List Site) :
    visits c (earlier ++ later) =
      visits c earlier ++ visits { c with facts := c.facts.after c.script.names earlier } later := by
  induction earlier generalizing c with
  | nil => rfl
  | cons s rest ih => rw [List.cons_append, visits, visits, ih, List.cons_append, Facts.after_cons]

theorem map_site_visits (c : Context) (sites : List Site) : (visits c sites).map Prod.snd = sites := by
  induction sites generalizing c with
  | nil => rfl
  | cons s rest ih => rw [visits, List.map_cons, ih]

/-- The visits of all below a visited site. -/
def visitsBelow (p : Context × Site) : List (Context × Site) :=
  visits { p.1 with facts := p.1.facts.observe p.1.script.names p.2 } p.2.preorder.tail

mutual

theorem visitsBelow_sitesOf (owner : Option Node) (parent : Option Kind) : ∀ (n : Node) {c : Context}
    {p : Context × Site}, p ∈ visits c (Site.sitesOf owner parent n) →
      visitsBelow p ⊆ visits c (Site.sitesOf owner parent n)
  | .mk k r b e l t cs, c, p, hp => by
    rw [Site.sitesOf, visits] at hp ⊢
    obtain rfl | hp := List.mem_cons.1 hp
    · exact fun q hq => List.mem_cons_of_mem _ hq
    · exact fun q hq => List.mem_cons_of_mem _ (visitsBelow_sitesOfAll _ k cs hp hq)

theorem visitsBelow_sitesOfAll (owner : Option Node) (parent : Kind) : ∀ (ns : List Node)
    {c : Context} {p : Context × Site}, p ∈ visits c (Site.sitesOfAll owner parent ns) →
      visitsBelow p ⊆ visits c (Site.sitesOfAll owner parent ns)
  | [], c, p, hp => by cases hp
  | n :: ns, c, p, hp => by
    rw [Site.sitesOfAll, visits_append, List.mem_append] at hp
    rw [Site.sitesOfAll, visits_append]
    obtain hp | hp := hp
    · exact fun q hq => List.mem_append_left _ (visitsBelow_sitesOf owner parent n hp hq)
    · exact fun q hq => List.mem_append_right _ (visitsBelow_sitesOfAll owner parent ns hp hq)

end

/-- A visit knows of a variable what the context knew at the start, unless a site before writes it. -/
theorem about_of_mem_visits {c : Context} {sites : List Site} {x : String}
    (h : ∀ s ∈ sites, x ∉ s.node.written) {q : Context × Site} (hq : q ∈ visits c sites) :
    q.1.facts.about x = c.facts.about x := by
  induction sites generalizing c with
  | nil => cases hq
  | cons s rest ih =>
    obtain ⟨hs, hrest⟩ := List.forall_mem_cons.1 h
    rw [visits] at hq
    obtain rfl | hq := List.mem_cons.1 hq
    · rfl
    · rw [ih hrest hq]
      exact Facts.about_observe hs

theorem Site.map_node_tail (s : Site) :
    s.preorder.tail.map Site.node = Node.preorderAll s.node.children := by
  have hnodes : s.preorder.map Site.node = s.node.preorder := map_node_sitesOf s.owner s.parent s.node
  rw [List.map_tail, hnodes, Node.preorder_eq, List.tail_cons]

theorem map_node_visitsBelow (p : Context × Site) :
    (visitsBelow p).map (fun q => q.2.node) = Node.preorderAll p.2.node.children := by
  have hsites : (visitsBelow p).map Prod.snd = p.2.preorder.tail := map_site_visits _ _
  rw [← Site.map_node_tail, ← hsites, List.map_map]
  rfl

theorem script_of_mem_visits {c : Context} {sites : List Site} {q : Context × Site}
    (hq : q ∈ visits c sites) : q.1.script = c.script := by
  obtain ⟨-, facts, hc⟩ := of_mem_visits hq
  rw [hc]

/-- Inside an assignment to a variable that it writes nowhere else, every visit knows of the
variable what the assignment has recorded, and of every variable not written there what was known
before the assignment. -/
theorem inside_assignment {policy : Policy} {graph : CallGraph} {s : Script}
    {extension : Option String} {size : Option Nat} {p : Context × Site}
    (hp : p ∈ visits (startContext policy graph s extension size) (Site.root s.root).preorder)
    {left right : Node} {x : String} (hkind : p.2.node.kind = .assignmentExpression)
    (hleft : p.2.node.child? .left = some left) (hx : left.IsVariable x)
    (hright : p.2.node.child? .right = some right)
    (hquiet : ∀ d ∈ Node.preorderAll p.2.node.children, x ∉ d.written) :
    (∀ d ∈ right.preorder, ∃ q ∈ visitsBelow p, q.2.node = d) ∧
    ∀ q ∈ visitsBelow p,
      q ∈ visits (startContext policy graph s extension size) (Site.root s.root).preorder ∧
      q.1.facts.about x = (p.1.facts.observe s.names p.2).about x ∧
      q.1.facts.values.find? x = (p.1.facts.forget x).told? right.unwrap ∧
      ∀ y, y ≠ x → (∀ d ∈ Node.preorderAll p.2.node.children, y ∉ d.written) →
        q.1.facts.about y = p.1.facts.about y := by
  have hscript : p.1.script = s := script_of_mem_visits hp
  have hsites : ∀ {y}, (∀ d ∈ Node.preorderAll p.2.node.children, y ∉ d.written) →
      ∀ t ∈ p.2.preorder.tail, y ∉ t.node.written := by
    intro y hy t ht
    refine hy t.node ?_
    rw [← Site.map_node_tail]
    exact List.mem_map_of_mem ht
  have hobserve : p.1.facts.observe s.names p.2 = p.1.facts.assign s.names p.2 := by
    rw [Facts.observe, hkind]
  constructor
  · intro d hd
    have hmem : d ∈ (visitsBelow p).map fun q => q.2.node := by
      rw [map_node_visitsBelow, Node.mem_preorderAll]
      exact ⟨right, Node.mem_children_of_child? hright, hd⟩
    obtain ⟨q, hq, rfl⟩ := List.mem_map.1 hmem
    exact ⟨q, hq, rfl⟩
  · intro q hq
    have habout : q.1.facts.about x = (p.1.facts.observe s.names p.2).about x := by
      rw [about_of_mem_visits (hsites hquiet) hq, hscript]
    have hvalue : q.1.facts.values.find? x = (p.1.facts.forget x).told? right.unwrap := by
      have h := congrArg Known.value habout
      rw [hobserve] at h
      rw [show q.1.facts.values.find? x = _ from h]
      exact (Facts.find?_assign hleft hx hright x).trans (if_pos rfl)
    refine ⟨visitsBelow_sitesOf _ _ _ hp hq, habout, hvalue, fun y hne hy => ?_⟩
    rw [about_of_mem_visits (hsites hy) hq, hscript, hobserve]
    refine Facts.about_assign_of_not_left ?_
    rw [hleft, Option.bind_some, hx.plainVariable?]
    exact fun h => hne (Option.some.inj h).symm

section Sources

def forbiddingSystem : Policy :=
  { (default : Policy) with forbiddenFunctions := ["system"] }

/-- The visits of a scan of one source file, in order. -/
def visitsOfText (source : String) : List (Context × Site) :=
  let s := Script.ofBytes "plugin.php" source.toUTF8
  visits (startContext forbiddingSystem (.empty forbiddingSystem 5) s none none)
    (Site.root s.root).preorder

theorem own_variable_unknown_inside :
    ∃ p ∈ visitsOfText "<?php $f='system';$f=$f('ls');",
      p.2.node.kind = .assignmentExpression ∧ p.1.facts.values.find? "f" = some "system" ∧
      ∃ left ∈ p.2.node.child? .left, left.IsVariable "f" ∧
      ∃ right ∈ p.2.node.child? .right,
        (∀ d ∈ Node.preorderAll p.2.node.children, "f" ∉ d.written) ∧
        (∀ d ∈ right.preorder, ∃ q ∈ visitsBelow p, q.2.node = d) ∧
        ∀ q ∈ visitsBelow p, q.1.facts.values.find? "f" = none := by
  have hfound : ∃ p ∈ visitsOfText "<?php $f='system';$f=$f('ls');",
      p.2.node.kind = .assignmentExpression ∧ p.1.facts.values.find? "f" = some "system" ∧
      ∃ left ∈ p.2.node.child? .left, (left.kind = .variableName ∧ left.text = "$f") ∧
      ∃ right ∈ p.2.node.child? .right,
        (∀ d ∈ Node.preorderAll p.2.node.children, "f" ∉ d.written) ∧
        (p.1.facts.forget "f").told? right.unwrap = none := by
    decide +kernel
  obtain ⟨p, hp, hkind, hvalue, left, hleft, ⟨hvariable, htext⟩, right, hright, hquiet, htold⟩ :=
    hfound
  have hx : left.IsVariable "f" := ⟨hvariable, htext, by decide, by decide⟩
  obtain ⟨hinside, hknown⟩ := inside_assignment hp hkind hleft hx hright hquiet
  refine ⟨p, hp, hkind, hvalue, left, hleft, hx, right, hright, hquiet, hinside, fun q hq => ?_⟩
  rw [(hknown q hq).2.2.1, htold]

/-- A variable that is called by its own assignment is known when the assignment is reached, and no
more when the call is judged. -/
theorem own_call_judged_unknown :
    ∃ p ∈ visitsOfText "<?php $f='system';$f=$f('ls');",
      p.2.node.kind = .assignmentExpression ∧
      (p.2.node.child? .left).bind Node.plainVariable? = some "f" ∧
      (∀ d ∈ Node.preorderAll p.2.node.children, "f" ∉ d.written) ∧
      p.1.facts.values.find? "f" = some "system" ∧
      ∃ q ∈ visitsBelow p, q.2.node.kind = .functionCallExpression ∧
        q.2.node.callee?.bind Node.plainVariable? = some "f" ∧
        q.1.facts.values.find? "f" = none ∧
        (visit q.1 q.2).map (fun v => (v.type, v.severity)) =
          [("backdoor_variable_function_call", .high)] := by
  decide +kernel

end Sources

end PluginAudit.Php
