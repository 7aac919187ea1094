import PluginAudit.Php.Detect

namespace PluginAudit.Php

open Detect

namespace Site

mutual

theorem map_node_sitesOf (owner : Option Node) (parent : Option Kind) :
    ∀ n : Node, (sitesOf owner parent n).map Site.node = n.preorder
  | .mk k r s e l t cs => by
    rw [sitesOf, Node.preorder, List.map_cons, map_node_sitesOfAll]

theorem map_node_sitesOfAll (owner : Option Node) (parent : Kind) :
    ∀ ns : List Node, (sitesOfAll owner parent ns).map Site.node = Node.preorderAll ns
  | [] => rfl
  | n :: ns => by
    rw [sitesOfAll, Node.preorderAll, List.map_append, map_node_sitesOf, map_node_sitesOfAll]

end

theorem map_node_preorder (n : Node) : (Site.root n).preorder.map Site.node = n.preorder :=
  map_node_sitesOf none none n

theorem exists_site {root n : Node} (h : n ∈ root.preorder) :
    ∃ site ∈ (Site.root root).preorder, site.node = n := by
  rw [← map_node_preorder] at h
  exact List.mem_map.1 h

mutual

theorem mem_sitesOf_trans (owner : Option Node) (parent : Option Kind) : ∀ (n : Node) {s x : Site},
    s ∈ sitesOf owner parent n → x ∈ s.preorder → x ∈ sitesOf owner parent n
  | .mk k r b e l t cs, s, x, hs, hx => by
    rw [sitesOf, List.mem_cons] at hs
    obtain rfl | hs := hs
    · exact hx
    · rw [sitesOf]
      exact List.mem_cons_of_mem _ (mem_sitesOfAll_trans _ k cs hs hx)

theorem mem_sitesOfAll_trans (owner : Option Node) (parent : Kind) :
    ∀ (ns : List Node) {s x : Site},
      s ∈ sitesOfAll owner parent ns → x ∈ s.preorder → x ∈ sitesOfAll owner parent ns
  | [], s, x, hs, _ => by cases hs
  | n :: ns, s, x, hs, hx => by
    rw [sitesOfAll, List.mem_append] at hs ⊢
    obtain hs | hs := hs
    · exact .inl (mem_sitesOf_trans owner parent n hs hx)
    · exact .inr (mem_sitesOfAll_trans owner parent ns hs hx)

end

theorem mem_preorder_trans {s t x : Site} (hs : s ∈ t.preorder) (hx : x ∈ s.preorder) :
    x ∈ t.preorder :=
  mem_sitesOf_trans t.owner t.parent t.node hs hx

/-- The site of a child. -/
def below (s : Site) (c : Node) : Site :=
  ⟨c, ownerBelow s.owner s.node, some s.node.kind⟩

theorem mem_sitesOfAll {owner : Option Node} {parent : Kind} {x : Site} {ns : List Node} :
    x ∈ sitesOfAll owner parent ns ↔ ∃ n ∈ ns, x ∈ sitesOf owner (some parent) n := by
  induction ns with
  | nil => simp [sitesOfAll]
  | cons n ns ih => simp [sitesOfAll, ih]

theorem mem_preorder_self (s : Site) : s ∈ s.preorder := by
  obtain ⟨⟨k, r, b, e, l, t, cs⟩, owner, parent⟩ := s
  exact List.mem_cons_self

theorem mem_preorder_below (s : Site) {c : Node} (h : c ∈ s.node.children) :
    s.below c ∈ s.preorder := by
  obtain ⟨⟨k, r, b, e, l, t, cs⟩, owner, parent⟩ := s
  exact List.mem_cons_of_mem _ (mem_sitesOfAll.2 ⟨c, h, mem_preorder_self ⟨c, _, some k⟩⟩)

end Site

/-- The context that a scan starts in. -/
def startContext (policy : Policy) (graph : CallGraph) (s : Script) (extension : Option String)
    (size : Option Nat) : Context where
  policy := policy
  graph := graph
  script := s
  facts := .empty
  extension := if extension.getD "" == "" then extensionOf s.path else extension.getD ""
  size := size.getD s.source.size

/-- The sites in order, each with the context that it is visited in. -/
def visits (c : Context) : List Site → List (Context × Site)
  | [] => []
  | s :: rest => (c, s) :: visits { c with facts := c.facts.observe c.script.names s } rest

theorem visitAll_eq (c : Context) (acc : List Violation) (sites : List Site) :
    visitAll c acc sites = acc.reverse ++ (visits c sites).flatMap fun p => visit p.1 p.2 := by
  induction sites generalizing c acc with
  | nil => simp [visitAll, visits]
  | cons s rest ih => simp [visitAll, visits, ih]

theorem scan_eq (policy : Policy) (graph : CallGraph) (s : Script) (extension : Option String)
    (size : Option Nat) :
    scan policy graph s extension size =
      parseFault s ++ tooLarge (startContext policy graph s extension size) ++
        (visits (startContext policy graph s extension size)
          (Site.root s.root).preorder).flatMap fun p => visit p.1 p.2 := by
  rw [scan, scanSharing, visitAll_eq]
  rfl

theorem exists_visit {site : Site} {sites : List Site} (h : site ∈ sites) (c : Context) :
    ∃ c', (c', site) ∈ visits c sites := by
  induction sites generalizing c with
  | nil => cases h
  | cons s rest ih =>
    obtain rfl | h := List.mem_cons.1 h
    · exact ⟨c, List.mem_cons_self⟩
    · obtain ⟨c', hc'⟩ := ih h { c with facts := c.facts.observe c.script.names s }
      exact ⟨c', List.mem_cons_of_mem _ hc'⟩

/-- Along a scan only the facts change. -/
theorem of_mem_visits {c c' : Context} {site : Site} {sites : List Site}
    (h : (c', site) ∈ visits c sites) : site ∈ sites ∧ ∃ facts, c' = { c with facts } := by
  induction sites generalizing c with
  | nil => cases h
  | cons s rest ih =>
    obtain heq | h := List.mem_cons.1 h
    · cases heq
      exact ⟨List.mem_cons_self, _, rfl⟩
    · obtain ⟨hsite, facts, rfl⟩ := ih h
      exact ⟨List.mem_cons_of_mem _ hsite, facts, rfl⟩

theorem exists_mem_scan {site : Site} {s : Script} (h : site ∈ (Site.root s.root).preorder)
    {P : Violation → Prop} (hreport : ∀ c, ∃ x ∈ visit c site, P x) (policy : Policy)
    (graph : CallGraph) (extension : Option String) (size : Option Nat) :
    ∃ x ∈ scan policy graph s extension size, P x := by
  obtain ⟨c, hc⟩ := exists_visit h (startContext policy graph s extension size)
  obtain ⟨x, hx, hP⟩ := hreport c
  refine ⟨x, ?_, hP⟩
  rw [scan_eq]
  exact List.mem_append_right _ (List.mem_flatMap.2 ⟨(c, site), hc, hx⟩)

/-- A call of a concatenation is always reported, whatever it amounts to. -/
theorem exists_mem_concatCall (c : Context) {s : Site} {fn : Node}
    (hfn : s.node.callee?.map Node.unwrap = some fn) (hconcat : fn.isConcat = true) :
    ∃ x ∈ concatCall c s, x.line = s.node.line := by
  simp only [concatCall, hfn, hconcat, Bool.not_true, Bool.false_eq_true, if_false]
  generalize Text.lower _ = expression
  split
  · simp [Context.violation]
  · split <;> simp [Context.violation]

end PluginAudit.Php
