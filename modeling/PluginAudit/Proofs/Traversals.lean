import PluginAudit.Proofs.Trees

namespace PluginAudit.Php.Node

mutual

/-- The node and all below it that belong to the same function body. -/
def scopeFrom : Node → List Node
  | mk k r s e l t cs =>
    mk k r s e l t cs :: if closesScope k then [] else scopeAll cs

def scopeAll : List Node → List Node
  | [] => []
  | c :: cs => scopeFrom c ++ scopeAll cs

end

theorem scopeAll_eq (ns : List Node) : scopeAll ns = ns.flatMap scopeFrom := by
  induction ns with
  | nil => rfl
  | cons n ns ih => rw [scopeAll, ih, List.flatMap_cons]

theorem scopeFrom_eq (n : Node) :
    n.scopeFrom = n :: if closesScope n.kind then [] else n.children.flatMap scopeFrom := by
  obtain ⟨k, r, s, e, l, t, cs⟩ := n
  rw [scopeFrom, scopeAll_eq]
  rfl

theorem scopeAll_append (ns ms : List Node) :
    scopeAll (ns ++ ms) = scopeAll ns ++ scopeAll ms := by
  rw [scopeAll_eq, scopeAll_eq, scopeAll_eq, List.flatMap_append]

theorem scopeAll_ne_nil (n : Node) (ns : List Node) : scopeAll (n :: ns) ≠ [] := by
  rw [scopeAll, scopeFrom_eq]
  exact List.cons_ne_nil _ _

mutual

theorem length_scopeFrom_le : ∀ n : Node, n.scopeFrom.length ≤ n.size
  | .mk k r s e l t cs => by
    rw [scopeFrom, size, List.length_cons]
    apply Nat.succ_le_succ
    split
    case isTrue => exact Nat.zero_le _
    case isFalse => exact length_scopeAll_le cs

theorem length_scopeAll_le : ∀ ns : List Node, (scopeAll ns).length ≤ sizeAll ns
  | [] => Nat.le_refl _
  | n :: ns => by
    rw [scopeAll, sizeAll, List.length_append]
    exact Nat.add_le_add (length_scopeFrom_le n) (length_scopeAll_le ns)

end

namespace Traversal

/-- The nodes that a traversal has met, and those that it is going to meet. -/
def nodes (t : Traversal) : List Node :=
  t.met.reverse ++ scopeAll t.waiting

theorem step_cons (met rest : List Node) (n : Node) :
    step ⟨met, n :: rest⟩ =
      ⟨n :: met, (if closesScope n.kind then [] else n.children) ++ rest⟩ :=
  rfl

theorem length_nodes (t : Traversal) :
    t.nodes.length = t.met.length + (scopeAll t.waiting).length := by
  rw [nodes, List.length_append, List.length_reverse]

theorem nodes_step (t : Traversal) : t.step.nodes = t.nodes := by
  obtain ⟨met, waiting⟩ := t
  cases waiting with
  | nil => rfl
  | cons n rest =>
    have hnext : n.scopeFrom = n :: scopeAll (if closesScope n.kind then [] else n.children) := by
      rw [scopeFrom_eq, scopeAll_eq]
      split <;> rfl
    rw [step_cons, nodes, nodes, List.reverse_cons, List.append_assoc, scopeAll, hnext,
      scopeAll_append]
    rfl

theorem nodes_run (steps : Nat) (t : Traversal) : (t.run steps).nodes = t.nodes := by
  induction steps generalizing t with
  | zero => rfl
  | succ steps ih => rw [run, ih, nodes_step]

theorem length_met_step (t : Traversal) :
    t.step.met.length = min (t.met.length + 1) t.nodes.length := by
  obtain ⟨met, waiting⟩ := t
  cases waiting with
  | nil => simp [step, nodes, scopeAll]
  | cons n rest =>
    have hsome := List.length_pos_iff.2 (scopeAll_ne_nil n rest)
    rw [step_cons, length_nodes, List.length_cons]
    dsimp only
    omega

theorem length_met_run (steps : Nat) (t : Traversal) :
    (t.run steps).met.length = min (t.met.length + steps) t.nodes.length := by
  induction steps generalizing t with
  | zero =>
    rw [run, length_nodes]
    omega
  | succ steps ih =>
    rw [run, ih, nodes_step, length_met_step]
    omega

theorem reverse_met (t : Traversal) : t.met.reverse = t.nodes.take t.met.length := by
  rw [nodes, ← List.length_reverse, List.take_left]

/-- Every step meets the next node. -/
theorem reverse_met_run (steps : Nat) (t : Traversal) :
    (t.run steps).met.reverse = t.nodes.take (t.met.length + steps) := by
  rw [reverse_met, nodes_run, length_met_run, List.take_eq_take_iff]
  omega

/-- A traversal stops when it has met all its nodes, and not before. -/
theorem waiting_run_eq_nil_iff (steps : Nat) (t : Traversal) :
    (t.run steps).waiting = [] ↔ t.nodes.length ≤ t.met.length + steps := by
  have hlength := length_nodes (t.run steps)
  rw [nodes_run, length_met_run] at hlength
  cases hwaiting : (t.run steps).waiting with
  | nil =>
    rw [hwaiting, scopeAll, List.length_nil] at hlength
    simp only [true_iff]
    omega
  | cons n rest =>
    have hsome := List.length_pos_iff.2 (scopeAll_ne_nil n rest)
    rw [hwaiting] at hlength
    simp only [List.cons_ne_nil, false_iff]
    omega

end Traversal

theorem scope_eq (n : Node) : n.scope = scopeAll n.children := by
  rw [scope, Traversal.reverse_met_run]
  apply List.take_of_length_le
  have hsteps := length_scopeAll_le n.children
  rwa [Traversal.below, List.length_nil, Nat.zero_add]

/-- The node at an address: the numbers of the children on the way down to it. -/
def at? : Node → List Nat → Option Node
  | n, [] => some n
  | n, i :: a => n.children[i]?.bind fun c => c.at? a

/-- No function, class or anonymous class stands strictly between a node and an address below it. -/
def Unbroken (n : Node) (a : List Nat) : Prop :=
  ∀ b c, b ≠ [] → b <+: a → b ≠ a → n.at? b = some c → closesScope c.kind = false

/-- A node stands at an address below the body of a function, in the function's own code. -/
structure Owns (body : Node) (a : List Nat) (m : Node) : Prop where
  below : a ≠ []
  stands : body.at? a = some m
  unbroken : body.Unbroken a

mutual

/-- The nodes of a scope that starts with the node itself, with their addresses from it on. -/
def ownNodes : Node → List (List Nat × Node)
  | mk k r s e l t cs =>
    ([], mk k r s e l t cs) :: if closesScope k then [] else ownNodesAll 0 cs

def ownNodesAll (index : Nat) : List Node → List (List Nat × Node)
  | [] => []
  | c :: cs => (ownNodes c).map (fun p => (index :: p.1, p.2)) ++ ownNodesAll (index + 1) cs

end

mutual

theorem map_snd_ownNodes : ∀ n : Node, n.ownNodes.map Prod.snd = n.scopeFrom
  | .mk k r s e l t cs => by
    rw [ownNodes, scopeFrom, List.map_cons]
    split
    case isTrue => rfl
    case isFalse => rw [map_snd_ownNodesAll]

theorem map_snd_ownNodesAll (index : Nat) : ∀ ns : List Node,
    (ownNodesAll index ns).map Prod.snd = scopeAll ns
  | [] => rfl
  | n :: ns => by
    rw [ownNodesAll, scopeAll, List.map_append, List.map_map, map_snd_ownNodesAll,
      ← map_snd_ownNodes n]
    rfl

end

theorem mem_ownNodesAll {index : Nat} {a : List Nat} {m : Node} {ns : List Node} :
    (a, m) ∈ ownNodesAll index ns ↔
      ∃ i b c, a = (index + i) :: b ∧ ns[i]? = some c ∧ (b, m) ∈ c.ownNodes := by
  induction ns generalizing index with
  | nil => simp [ownNodesAll]
  | cons n ns ih =>
    rw [ownNodesAll, List.mem_append, ih]
    constructor
    · rintro (h | ⟨i, b, c, rfl, hc, hm⟩)
      · obtain ⟨p, hp, heq⟩ := List.mem_map.1 h
        cases heq
        exact ⟨0, p.1, n, rfl, rfl, hp⟩
      · exact ⟨i + 1, b, c, by rw [Nat.add_right_comm, Nat.add_assoc], hc, hm⟩
    · rintro ⟨i, b, c, rfl, hc, hm⟩
      cases i with
      | zero =>
        cases hc
        exact .inl (List.mem_map.2 ⟨(b, m), hm, rfl⟩)
      | succ i => exact .inr ⟨i, b, c, by rw [Nat.add_right_comm, Nat.add_assoc], hc, hm⟩

theorem at?_cons {n c : Node} {i : Nat} (hc : n.children[i]? = some c) (a : List Nat) :
    n.at? (i :: a) = c.at? a := by
  rw [at?, hc, Option.bind_some]

theorem at?_cons_eq_some {n m : Node} {i : Nat} {a : List Nat} :
    n.at? (i :: a) = some m ↔ ∃ c, n.children[i]? = some c ∧ c.at? a = some m := by
  rw [at?, Option.bind_eq_some_iff]

theorem unbroken_singleton (n : Node) (i : Nat) : n.Unbroken [i] := by
  intro b c hb hprefix hne
  obtain rfl | ⟨rest, rfl, hrest⟩ := List.prefix_cons_iff.1 hprefix
  · exact absurd rfl hb
  · rw [List.prefix_nil.1 hrest] at hne
    exact absurd rfl hne

theorem unbroken_cons_cons {n c : Node} {i j : Nat} {a : List Nat}
    (hc : n.children[i]? = some c) :
    n.Unbroken (i :: j :: a) ↔ closesScope c.kind = false ∧ c.Unbroken (j :: a) := by
  have hat (b : List Nat) : n.at? (i :: b) = c.at? b := at?_cons hc b
  constructor
  · intro h
    have hbelow (b : List Nat) (x : Node) (hb : b <+: j :: a) (hne : b ≠ j :: a)
        (hx : c.at? b = some x) : closesScope x.kind = false := by
      refine h (i :: b) x (List.cons_ne_nil i b) (List.cons_prefix_cons.2 ⟨rfl, hb⟩) ?_ ?_
      · intro heq
        exact hne (List.cons.inj heq).2
      · rw [hat, hx]
    exact ⟨hbelow [] c List.nil_prefix (List.cons_ne_nil j a).symm rfl,
      fun b x _ hb hne hx => hbelow b x hb hne hx⟩
  · rintro ⟨hopen, h⟩ b x hnil hb hne hx
    obtain rfl | ⟨b, rfl, hb'⟩ := List.prefix_cons_iff.1 hb
    · exact absurd rfl hnil
    rw [hat] at hx
    cases b with
    | nil =>
      cases hx
      exact hopen
    | cons k b =>
      refine h (k :: b) x (List.cons_ne_nil k b) hb' ?_ hx
      intro heq
      exact hne (congrArg (i :: ·) heq)

theorem cons_mem_ownNodesAll {i : Nat} {a : List Nat} {m : Node} {ns : List Node} :
    (i :: a, m) ∈ ownNodesAll 0 ns ↔ ∃ c, ns[i]? = some c ∧ (a, m) ∈ c.ownNodes := by
  rw [mem_ownNodesAll]
  constructor
  · rintro ⟨j, b, c, heq, hc, hm⟩
    rw [Nat.zero_add] at heq
    cases heq
    exact ⟨c, hc, hm⟩
  · rintro ⟨c, hc, hm⟩
    exact ⟨i, a, c, by rw [Nat.zero_add], hc, hm⟩

theorem nil_not_mem_ownNodesAll {m : Node} {ns : List Node} : ([], m) ∉ ownNodesAll 0 ns := by
  intro h
  obtain ⟨i, b, c, hnil, -⟩ := mem_ownNodesAll.1 h
  cases hnil

theorem ownNodes_eq (n : Node) :
    n.ownNodes = ([], n) :: if closesScope n.kind then [] else ownNodesAll 0 n.children := by
  cases n
  rfl

theorem nil_mem_ownNodes {n m : Node} : ([], m) ∈ n.ownNodes ↔ n = m := by
  rw [ownNodes_eq, List.mem_cons, Prod.mk.injEq]
  constructor
  · rintro (⟨-, rfl⟩ | h)
    · rfl
    · split at h
      · cases h
      · exact absurd h nil_not_mem_ownNodesAll
  · rintro rfl
    exact .inl ⟨rfl, rfl⟩

theorem cons_mem_ownNodes {n m : Node} {i : Nat} {a : List Nat} :
    (i :: a, m) ∈ n.ownNodes ↔
      closesScope n.kind = false ∧ (i :: a, m) ∈ ownNodesAll 0 n.children := by
  rw [ownNodes_eq]
  cases closesScope n.kind <;> simp

theorem cons_mem_ownNodesAll_children {n m : Node} {i : Nat} {a : List Nat} :
    (i :: a, m) ∈ ownNodesAll 0 n.children ↔ n.at? (i :: a) = some m ∧ n.Unbroken (i :: a) := by
  induction a generalizing n i with
  | nil =>
    rw [cons_mem_ownNodesAll, at?_cons_eq_some, and_iff_left (unbroken_singleton n i)]
    simp only [nil_mem_ownNodes, at?, Option.some.injEq]
  | cons j a ih =>
    rw [cons_mem_ownNodesAll, at?_cons_eq_some]
    constructor
    · rintro ⟨c, hc, h⟩
      obtain ⟨hopen, h⟩ := cons_mem_ownNodes.1 h
      obtain ⟨hm, hbelow⟩ := ih.1 h
      exact ⟨⟨c, hc, hm⟩, (unbroken_cons_cons hc).2 ⟨hopen, hbelow⟩⟩
    · rintro ⟨⟨c, hc, hm⟩, h⟩
      obtain ⟨hopen, hbelow⟩ := (unbroken_cons_cons hc).1 h
      exact ⟨c, hc, cons_mem_ownNodes.2 ⟨hopen, ih.2 ⟨hm, hbelow⟩⟩⟩

theorem mem_ownNodesAll_iff_owns {n m : Node} {a : List Nat} :
    (a, m) ∈ ownNodesAll 0 n.children ↔ n.Owns a m := by
  cases a with
  | nil =>
    constructor
    · intro h
      exact absurd h nil_not_mem_ownNodesAll
    · intro h
      exact absurd rfl h.below
  | cons i a =>
    rw [cons_mem_ownNodesAll_children]
    constructor
    · rintro ⟨hm, h⟩
      exact ⟨List.cons_ne_nil i a, hm, h⟩
    · rintro ⟨-, hm, h⟩
      exact ⟨hm, h⟩

/-- The addresses go up: a node comes before what is below it, and that before what comes after the
node. -/
def Rising (nodes : List (List Nat × Node)) : Prop :=
  nodes.Pairwise fun p q => p.1 < q.1

mutual

theorem rising_ownNodes : ∀ n : Node, Rising n.ownNodes
  | .mk k r s e l t cs => by
    rw [ownNodes]
    split
    case isTrue => exact List.pairwise_singleton _ _
    case isFalse =>
      apply List.pairwise_cons.2 ⟨?_, rising_ownNodesAll 0 cs⟩
      rintro ⟨a, m⟩ h
      obtain ⟨i, b, c, rfl, -⟩ := mem_ownNodesAll.1 h
      exact List.nil_lt_cons _ _

theorem rising_ownNodesAll (index : Nat) : ∀ ns : List Node, Rising (ownNodesAll index ns)
  | [] => .nil
  | n :: ns => by
    rw [ownNodesAll]
    have hbelow : Rising (n.ownNodes.map fun p => (index :: p.1, p.2)) :=
      List.pairwise_map.2 ((rising_ownNodes n).imp fun h => List.cons_lt_cons_self.2 h)
    apply List.pairwise_append.2 ⟨hbelow, rising_ownNodesAll (index + 1) ns, ?_⟩
    intro p hp q hq
    obtain ⟨p, -, rfl⟩ := List.mem_map.1 hp
    obtain ⟨a, m⟩ := q
    obtain ⟨i, b, c, rfl, -⟩ := mem_ownNodesAll.1 hq
    exact List.cons_lt_cons_iff.2 (.inl (by omega))

end

end PluginAudit.Php.Node
