import PluginAudit.Php.CallGraph
import PluginAudit.Proofs.NamespaceRegions
import PluginAudit.Proofs.Traversals

namespace PluginAudit.Php

namespace Node

/-- The first part of a statement that is neither a bare token nor a comment. -/
def FirstOperand (n e : Node) : Prop :=
  ∃ before after, n.namedChildren = before ++ e :: after ∧
    (∀ c ∈ before, c.kind = .comment) ∧ e.kind ≠ .comment

theorem returned?_eq_some_iff {n e : Node} : n.returned? = some e ↔ n.FirstOperand e := by
  rw [returned?, List.find?_eq_some_iff_append, bne_iff_ne, and_comm]
  constructor
  · rintro ⟨⟨before, after, heq, hbefore⟩, he⟩
    exact ⟨before, after, heq, fun c hc => by simpa using hbefore c hc, he⟩
  · rintro ⟨before, after, heq, hbefore, he⟩
    exact ⟨⟨before, after, heq, fun c hc => by simpa using hbefore c hc⟩, he⟩

/-- The children of every node follow one another in the source, within the range of the node. -/
inductive LaidOut : Node → Prop where
  | intro {n : Node} (sequence : InSequence n.start n.stop n.children)
      (children : ∀ c ∈ n.children, c.LaidOut) : LaidOut n

section LaidOut

theorem laidOut_mk {k : Kind} {r : Option Role} {s e l : Nat} {t : String} {cs : List Node} :
    (mk k r s e l t cs).LaidOut ↔ InSequence s e cs ∧ ∀ c ∈ cs, c.LaidOut := by
  constructor
  · rintro ⟨hsequence, hchildren⟩
    exact ⟨hsequence, hchildren⟩
  · rintro ⟨hsequence, hchildren⟩
    exact .intro hsequence hchildren

variable {start stop : Nat} {cs : List Node} {n m : Node} {a b : List Nat}

theorem InSequence.start_le_stop (h : InSequence start stop cs) : start ≤ stop := by
  induction cs generalizing start with
  | nil => exact h
  | cons c cs ih => exact (h.1.trans h.2.1).trans (ih h.2.2)

theorem InSequence.stop_le (h : InSequence start stop cs) {c : Node} (hc : c ∈ cs) :
    c.stop ≤ stop := by
  obtain ⟨before, after, rfl⟩ := List.append_of_mem hc
  exact h.of_append.1.start_le_stop

theorem InSequence.stop_le_start (h : InSequence start stop cs) {i j : Nat} {c d : Node}
    (hc : cs[i]? = some c) (hd : cs[j]? = some d) (hlt : i < j) : c.stop ≤ d.start := by
  obtain ⟨hi, rfl⟩ := List.getElem?_eq_some_iff.1 hc
  have hsplit : cs = cs.take i ++ cs[i] :: cs.drop (i + 1) := by
    rw [List.getElem_cons_drop, List.take_append_drop]
  have hafter : d ∈ cs.drop (i + 1) := by
    rw [← Nat.add_sub_cancel' hlt, ← List.getElem?_drop] at hd
    exact List.mem_of_getElem? hd
  rw [hsplit] at h
  exact (h.of_append.1.mem hafter).1

theorem LaidOut.child (h : n.LaidOut) (hm : m ∈ n.children) :
    m.LaidOut ∧ n.start ≤ m.start ∧ m.stop ≤ n.stop := by
  obtain ⟨hsequence, hchildren⟩ := h
  exact ⟨hchildren m hm, (hsequence.mem hm).1, hsequence.stop_le hm⟩

/-- A node lies in the range of each node above it. -/
theorem LaidOut.within (h : n.LaidOut) (hm : n.at? a = some m) :
    n.start ≤ m.start ∧ m.start ≤ m.stop ∧ m.stop ≤ n.stop := by
  induction a generalizing n with
  | nil =>
    cases hm
    obtain ⟨hsequence, -⟩ := h
    exact ⟨Nat.le_refl _, hsequence.start_le_stop, Nat.le_refl _⟩
  | cons i a ih =>
    obtain ⟨c, hc, hm⟩ := at?_cons_eq_some.1 hm
    obtain ⟨hlaid, hstart, hstop⟩ := h.child (List.mem_of_getElem? hc)
    obtain ⟨hstart', hforward, hstop'⟩ := ih hlaid hm
    exact ⟨hstart.trans hstart', hforward, hstop'.trans hstop⟩

/-- The order of addresses is the order in the source. -/
theorem LaidOut.start_le_start (h : n.LaidOut) {x y : Node} (hx : n.at? a = some x)
    (hy : n.at? b = some y) (hlt : a < b) : x.start ≤ y.start := by
  induction a generalizing n b with
  | nil =>
    cases hx
    exact (h.within hy).1
  | cons i a ih =>
    cases b with
    | nil => exact absurd hlt (List.not_lt_nil _)
    | cons j b =>
      obtain ⟨c, hc, hx⟩ := at?_cons_eq_some.1 hx
      obtain ⟨d, hd, hy⟩ := at?_cons_eq_some.1 hy
      have hclaid := (h.child (List.mem_of_getElem? hc)).1
      obtain hindex | ⟨rfl, hrest⟩ := List.cons_lt_cons_iff.1 hlt
      · have hdlaid := (h.child (List.mem_of_getElem? hd)).1
        obtain ⟨-, hforward, hstop⟩ := hclaid.within hx
        obtain ⟨hstart, -⟩ := hdlaid.within hy
        obtain ⟨hsequence, -⟩ := h
        exact ((hforward.trans hstop).trans (hsequence.stop_le_start hc hd hindex)).trans hstart
      · obtain rfl : c = d := Option.some.inj (hc.symm.trans hd)
        exact ih hclaid hx hy hrest

end LaidOut

end Node

/-- A `return` statement with an operand, at an address below the body of a function. -/
structure Return where
  address : List Nat
  statement : Node
  operand : Node

/-- The statement stands in the own code of a definition. -/
structure Return.IsOwn (r : Return) (d : Definition) : Prop where
  owned : ∃ body, d.node.child? .body = some body ∧ body.Owns r.address r.statement
  kind : r.statement.kind = .returnStatement
  operand : r.statement.FirstOperand r.operand

/-- The `return` of a node at an address, if it is one and has an operand. -/
def Return.ofNode? (p : List Nat × Node) : Option Return :=
  if p.2.kind == .returnStatement then p.2.returned?.map fun e => ⟨p.1, p.2, e⟩ else none

theorem Return.ofNode?_eq_some_iff {p : List Nat × Node} {r : Return} :
    ofNode? p = some r ↔ p = (r.address, r.statement) ∧
      r.statement.kind = .returnStatement ∧ r.statement.FirstOperand r.operand := by
  obtain ⟨a, n⟩ := p
  obtain ⟨b, m, e⟩ := r
  rw [ofNode?, ← Node.returned?_eq_some_iff]
  dsimp only
  constructor
  · intro h
    split at h
    case isTrue hkind =>
      obtain ⟨e, he, heq⟩ := Option.map_eq_some_iff.1 h
      cases heq
      exact ⟨rfl, by simpa using hkind, he⟩
    case isFalse => cases h
  · rintro ⟨heq, hkind, he⟩
    cases heq
    rw [if_pos (by rw [hkind]; rfl), he]
    rfl

namespace Definition

/-- The `return` statements with an operand in the own code of a definition. -/
def ownReturns (d : Definition) : List Return :=
  match d.node.child? .body with
  | none => []
  | some body => (Node.ownNodesAll 0 body.children).filterMap Return.ofNode?

theorem map_operand_ownReturns (d : Definition) :
    d.ownReturns.map Return.operand = d.returns := by
  rw [ownReturns, returns]
  cases d.node.child? .body with
  | none => rfl
  | some body =>
    dsimp only
    rw [Node.scope_eq, ← Node.map_snd_ownNodesAll 0, List.filterMap_filter, List.filterMap_map,
      List.map_filterMap]
    congr 1
    funext p
    rw [Return.ofNode?, Function.comp_apply]
    split
    · rw [Option.map_map]
      exact Option.map_id_apply
    · rfl

theorem mem_ownReturns {d : Definition} {r : Return} : r ∈ d.ownReturns ↔ r.IsOwn d := by
  rw [ownReturns]
  cases hbody : d.node.child? .body with
  | none =>
    constructor
    · intro h
      cases h
    · rintro ⟨⟨body, hsome, -⟩, -⟩
      rw [hbody] at hsome
      cases hsome
  | some body =>
    dsimp only
    rw [List.mem_filterMap]
    constructor
    · rintro ⟨p, hp, hr⟩
      obtain ⟨rfl, hkind, hoperand⟩ := Return.ofNode?_eq_some_iff.1 hr
      exact ⟨⟨body, hbody, Node.mem_ownNodesAll_iff_owns.1 hp⟩, hkind, hoperand⟩
    · rintro ⟨⟨body', hsome, howns⟩, hkind, hoperand⟩
      obtain rfl : body = body' := Option.some.inj (hbody.symm.trans hsome)
      exact ⟨_, Node.mem_ownNodesAll_iff_owns.2 howns,
        Return.ofNode?_eq_some_iff.2 ⟨rfl, hkind, hoperand⟩⟩

theorem pairwise_ownReturns (d : Definition) :
    d.ownReturns.Pairwise fun r r' => r.address < r'.address := by
  rw [ownReturns]
  cases d.node.child? .body with
  | none => exact .nil
  | some body =>
    apply List.pairwise_filterMap.2 ((Node.rising_ownNodesAll 0 body.children).imp ?_)
    intro p q hlt r hr r' hr'
    obtain ⟨rfl, -⟩ := Return.ofNode?_eq_some_iff.1 hr
    obtain ⟨rfl, -⟩ := Return.ofNode?_eq_some_iff.1 hr'
    exact hlt

/-- A definition returns the operands of the `return` statements in its own code, of all of them and
of no others, in the order of the source. The traversal meets each node of that code once, one at
each step, and then stops. -/
theorem returns_own_operands (d : Definition) :
    (∃ found : List Return, found.Pairwise (fun r r' => r.address < r'.address) ∧
      (d.node.LaidOut → found.Pairwise fun r r' => r.statement.start ≤ r'.statement.start) ∧
      (∀ r, r ∈ found ↔ r.IsOwn d) ∧ d.returns = found.map Return.operand) ∧
    ∀ body, d.node.child? .body = some body →
      ∃ nodes : List (List Nat × Node), nodes.Pairwise (fun p q => p.1 < q.1) ∧
        (∀ a n, (a, n) ∈ nodes ↔ body.Owns a n) ∧ body.scope = nodes.map Prod.snd ∧
        ∀ steps, let t := (Node.Traversal.below body).run steps
          t.met.reverse = (nodes.take steps).map Prod.snd ∧
            (t.waiting = [] ↔ nodes.length ≤ steps) := by
  constructor
  · refine ⟨d.ownReturns, d.pairwise_ownReturns, ?_, fun r => mem_ownReturns,
      d.map_operand_ownReturns.symm⟩
    intro hlaid
    apply d.pairwise_ownReturns.imp_of_mem
    intro r r' hr hr' hlt
    obtain ⟨⟨body, hbody, howns⟩, -⟩ := mem_ownReturns.1 hr
    obtain ⟨⟨body', hbody', howns'⟩, -⟩ := mem_ownReturns.1 hr'
    obtain rfl : body = body' := Option.some.inj (hbody.symm.trans hbody')
    have hbodyLaid := (hlaid.child (Node.mem_children_of_child? hbody)).1
    exact hbodyLaid.start_le_start howns.stands howns'.stands hlt
  · intro body hbody
    have hnodes := Node.map_snd_ownNodesAll 0 body.children
    refine ⟨Node.ownNodesAll 0 body.children, Node.rising_ownNodesAll 0 body.children,
      fun a n => Node.mem_ownNodesAll_iff_owns, ?_, ?_⟩
    · rw [hnodes, Node.scope_eq]
    · intro steps t
      have hall : (Node.Traversal.below body).nodes = Node.scopeAll body.children := rfl
      have hnone : (Node.Traversal.below body).met.length = 0 := rfl
      constructor
      · rw [Node.Traversal.reverse_met_run, hall, hnone, Nat.zero_add, ← hnodes, List.map_take]
      · rw [Node.Traversal.waiting_run_eq_nil_iff, hall, hnone, Nat.zero_add, ← hnodes,
          List.length_map]

end Definition

section Closure

def bare (start stop : Nat) (t : String) : Node :=
  .mk .token none start stop 1 t []

def noParameters (start : Nat) : Node :=
  .mk .formalParameters none start (start + 2) 1 "()"
    [bare start (start + 1) "(", bare (start + 1) (start + 2) ")"]

def returnX : Node :=
  .mk .returnStatement none 40 51 1 "return 'x';"
    [bare 40 46 "return", .mk .string none 47 50 1 "'x'" [], bare 50 51 ";"]

def closureX : Node :=
  .mk .anonymousFunction (some .right) 26 53 1 "function () \x7b return 'x'; \x7d"
    [bare 26 34 "function", noParameters 35,
      .mk .compoundStatement (some .body) 38 53 1 "\x7b return 'x'; \x7d"
        [bare 38 39 "\x7b", returnX, bare 52 53 "\x7d"]]

def assignClosure : Node :=
  .mk .expressionStatement none 21 54 1 "$g = function () \x7b return 'x'; \x7d;"
    [.mk .assignmentExpression none 21 53 1 "$g = function () \x7b return 'x'; \x7d"
        [.mk .variableName (some .left) 21 23 1 "$g"
            [bare 21 22 "$", .mk .name none 22 23 1 "g" []],
          bare 24 25 "=", closureX],
      bare 53 54 ";"]

def integerOne : Node :=
  .mk .integer none 70 71 1 "1" []

def returnOne : Node :=
  .mk .returnStatement none 55 72 1 "return /* 1 */ 1;"
    [bare 55 61 "return", .mk .comment none 62 69 1 "/* 1 */" [], integerOne, bare 71 72 ";"]

def bodyF : Node :=
  .mk .compoundStatement (some .body) 19 74 1
    "\x7b $g = function () \x7b return 'x'; \x7d; return /* 1 */ 1; \x7d"
    [bare 19 20 "\x7b", assignClosure, returnOne, bare 73 74 "\x7d"]

/-- The function in `<?php function f() { $g = function () { return 'x'; }; return /* 1 */ 1; }`. -/
def holdsClosure : Definition where
  name := "f"
  node := .mk .functionDefinition none 6 74 1
    "function f() \x7b $g = function () \x7b return 'x'; \x7d; return /* 1 */ 1; \x7d"
    [bare 6 14 "function", .mk .name (some .name) 15 16 1 "f" [], noParameters 16, bodyF]
  path := "a.php"
  names := default
  className := ""

theorem laidOut_holdsClosure : holdsClosure.node.LaidOut := by
  simp [holdsClosure, bodyF, returnOne, integerOne, assignClosure, closureX, returnX, noParameters,
    bare, Node.laidOut_mk, Node.InSequence, Node.start, Node.stop]

theorem returns_holdsClosure : holdsClosure.returns = [integerOne] := by
  rfl

/-- What a closure returns is not returned by the function that holds it. -/
theorem closure_return_left_out :
    holdsClosure.node.child? .body = some bodyF ∧ holdsClosure.node.LaidOut ∧
    bodyF.at? [1, 0, 2, 2, 1] = some returnX ∧
    (∃ found : List Return, found.map Return.operand = [integerOne] ∧
      (∀ r, r ∈ found ↔ r.IsOwn holdsClosure) ∧
      found.Pairwise fun r r' => r.statement.start ≤ r'.statement.start) ∧
    ∃ nodes : List (List Nat × Node), (∀ a n, (a, n) ∈ nodes ↔ bodyF.Owns a n) ∧
      ((Node.Traversal.below bodyF).run nodes.length).waiting = [] := by
  have hbody : holdsClosure.node.child? .body = some bodyF := rfl
  obtain ⟨⟨found, -, hstarts, hfound, hreturns⟩, hbodies⟩ :=
    Definition.returns_own_operands holdsClosure
  obtain ⟨nodes, -, hnodes, -, hsteps⟩ := hbodies bodyF hbody
  refine ⟨hbody, laidOut_holdsClosure, rfl, ⟨found, ?_, hfound, hstarts laidOut_holdsClosure⟩,
    nodes, hnodes, (hsteps nodes.length).2.2 (Nat.le_refl _)⟩
  rw [← hreturns, returns_holdsClosure]

end Closure

end PluginAudit.Php
