import PluginAudit.Php.CallGraph
import PluginAudit.Proofs.Casing
import PluginAudit.Proofs.Trees

namespace PluginAudit

namespace Table

variable {α : Type} {t : Table α} {key other : String} {value found : α}

theorem find?_put (t : Table α) (key other : String) (value : α) :
    (t.put key value).find? other = if other = key then some value else t.find? other := by
  split
  next h => rw [h, find?_put_self]
  next h => exact find?_put_of_ne t key other value (fun he => h he.symm)

theorem find?_put_cases (h : (t.put key value).find? other = some found) :
    (other = key ∧ found = value) ∨ t.find? other = some found := by
  rw [find?_put] at h
  split at h
  next he => exact .inl ⟨he, (Option.some.inj h).symm⟩
  next => exact .inr h

theorem find?_putNew_cases (h : (t.putNew key value).find? other = some found) :
    (other = key ∧ found = value) ∨ t.find? other = some found := by
  unfold putNew at h
  split at h
  next => exact .inr h
  next => exact find?_put_cases h

end Table

namespace Php

/-- No double colon stands in the text. -/
def Unscoped (s : String) : Prop :=
  ¬ [':', ':'] <:+: s.toList

instance (s : String) : Decidable (Unscoped s) :=
  inferInstanceAs (Decidable (¬ _))

/-- A text that cannot be told to start inside a double colon before it. -/
def IsMemberName (s : String) : Prop :=
  Unscoped s ∧ ¬ [':'] <+: s.toList

instance (s : String) : Decidable (IsMemberName s) :=
  inferInstanceAs (Decidable (_ ∧ _))

theorem isCaseless_colon : Text.IsCaseless ':' := by decide

theorem colon_caseless : ∀ x ∈ [':', ':'], Text.IsCaseless x := by
  simp [isCaseless_colon]

theorem Unscoped.lower {s : String} (h : Unscoped s) : Unscoped (Text.lower s) :=
  fun hi => h (Text.infix_of_infix_lower colon_caseless hi)

theorem IsMemberName.lower {s : String} (h : IsMemberName s) : IsMemberName (Text.lower s) :=
  ⟨h.1.lower, fun hp => h.2 (Text.prefix_of_prefix_lower (by simp [isCaseless_colon]) hp)⟩

/-- A double colon in two texts with a backslash between them lies in one of the two. -/
theorem infix_of_infix_backslash {a b : List Char} (h : [':', ':'] <:+: a ++ '\\' :: b) :
    [':', ':'] <:+: a ∨ [':', ':'] <:+: b := by
  induction a with
  | nil =>
    rw [List.nil_append, List.infix_cons_iff] at h
    rcases h with h | h
    · exact absurd (List.cons_prefix_cons.mp h).1 (by decide)
    · exact .inr h
  | cons c a ih =>
    rw [List.cons_append, List.infix_cons_iff] at h
    rcases h with h | h
    · obtain ⟨hc, hd⟩ := List.cons_prefix_cons.mp h
      cases a with
      | nil => exact absurd (List.cons_prefix_cons.mp hd).1 (by decide)
      | cons d a =>
        have hd := (List.cons_prefix_cons.mp hd).1
        exact .inl ⟨[], a, by rw [← hc, ← hd]; rfl⟩
    · exact (ih h).imp List.infix_cons id

theorem Unscoped.qualify {r : Region} {name : String} (hr : Unscoped r.ns) (h : Unscoped name) :
    Unscoped (r.qualify name) := by
  unfold Region.qualify
  split
  next => exact h
  next =>
    intro hi
    rw [String.toList_append, String.toList_append, List.append_assoc] at hi
    rcases infix_of_infix_backslash hi with hi | hi
    · exact hr hi
    · exact h hi

theorem Names.regionAt_mem (names : Names) (offset : Nat) :
    names.regionAt offset ∈ names.regions ∨ (names.regionAt offset).ns = "" := by
  unfold Names.regionAt
  split
  next r h => exact .inl (List.mem_reverse.mp (List.mem_of_find?_eq_some h))
  next =>
    cases names.regions with
    | nil => exact .inr rfl
    | cons r rs => exact .inl List.mem_cons_self

/-- The names that a script declares hold no double colon, and those of methods do not start with a
colon. In the grammar a name holds no colon at all; only a comment inside the name of a namespace
can bring one in. -/
structure Script.PlainNames (s : Script) : Prop where
  namespaces : ∀ r ∈ s.names.regions, Unscoped r.ns
  functions : ∀ n ∈ s.root.preorder, n.kind = .functionDefinition →
    Unscoped (CallGraph.textOf (n.child? .name))
  methods : ∀ n ∈ s.root.preorder, n.kind = .methodDeclaration →
    IsMemberName (CallGraph.textOf (n.child? .name))

theorem Script.PlainNames.qualified {s : Script} (h : s.PlainNames) (n : Node) {name : String}
    (hn : Unscoped name) : Unscoped (CallGraph.qualified s n name) := by
  apply Unscoped.qualify ?_ hn
  rcases s.names.regionAt_mem n.start with hm | he
  · exact h.namespaces _ hm
  · rw [he]
    decide

namespace CallGraph

variable {policy : Policy} {maxDepth : Int} {scripts : List Script}

/-- What holds of the empty graph and is kept by every declaration holds of the graph of some
scripts. -/
theorem ofScripts_induction {motive : CallGraph → Prop} (empty : motive (.empty policy maxDepth))
    (function : ∀ g, ∀ s ∈ scripts, ∀ n ∈ s.root.preorder, n.kind = .functionDefinition →
      motive g → motive (g.addFunction s n))
    (class' : ∀ g, ∀ s ∈ scripts, ∀ n ∈ s.root.preorder, n.kind.isClassLike = true →
      motive g → motive (g.addClass s n)) :
    motive (ofScripts policy maxDepth scripts) := by
  apply List.foldlRecOn scripts addScript empty
  intro g hg s hs
  apply List.foldlRecOn s.root.preorder _ hg
  intro g hg n hn
  split
  next hk => exact function g s hs n hn (by simpa using hk) hg
  next =>
    split
    next hk => exact class' g s hs n hn hk hg
    next => exact hg

/-- The key of a class, from the name that its declaration gives it. -/
def keyOf (s : Script) (cls : Node) : String :=
  classKey (qualified s cls (textOf (cls.child? .name)))

/-- What the entry of a named class, its parents and its members keep is kept by the whole class. -/
theorem addClass_induction {motive : CallGraph → Prop} {g : CallGraph} {s : Script} {n : Node}
    (base : motive g)
    (entry : ∀ g, motive g → motive { g with methods := g.methods.putNew (keyOf s n) [] })
    (parent : ∀ g clause, motive g → motive (addParent s (keyOf s n) g clause))
    (member : ∀ g body, n.child? .body = some body → textOf (n.child? .name) ≠ "" →
      ∀ m ∈ body.namedChildren, motive g → motive (addMember s (keyOf s n) g m)) :
    motive (g.addClass s n) := by
  unfold addClass
  dsimp only
  split
  next => exact base
  next hname =>
    have h : motive ((n.children.filter fun c => c.kind == .baseClause).foldl
        (addParent s (keyOf s n)) { g with methods := g.methods.putNew (keyOf s n) [] }) := by
      apply List.foldlRecOn _ _ (entry g base)
      intro g hg c _
      exact parent g c hg
    split
    next => exact h
    next body hb =>
      apply List.foldlRecOn _ _ h
      intro g hg m hm
      exact member g body hb (by simpa using hname) m hm hg

/-- The same declarations under another policy and limit. -/
def withSettings (g : CallGraph) (policy : Policy) (maxDepth : Int) : CallGraph :=
  { g with policy := policy, maxDepth := maxDepth }

section

variable (g : CallGraph) (s : Script) (n : Node) (key : String)

theorem addFunction_withSettings :
    (g.withSettings policy maxDepth).addFunction s n =
      (g.addFunction s n).withSettings policy maxDepth := by
  unfold addFunction
  dsimp only
  split <;> rfl

theorem addMember_withSettings :
    addMember s key (g.withSettings policy maxDepth) n =
      (addMember s key g n).withSettings policy maxDepth := by
  unfold addMember
  split
  · dsimp only
    split <;> rfl
  · dsimp only
    split <;> rfl
  · rfl

theorem addParent_withSettings :
    addParent s key (g.withSettings policy maxDepth) n =
      (addParent s key g n).withSettings policy maxDepth := by
  unfold addParent
  split <;> rfl

theorem addClass_withSettings :
    (g.withSettings policy maxDepth).addClass s n =
      (g.addClass s n).withSettings policy maxDepth := by
  unfold addClass
  dsimp only
  split
  next => rfl
  next =>
    generalize classKey (qualified s n (textOf (n.child? .name))) = key
    have hp (cs : List Node) (g : CallGraph) :
        cs.foldl (addParent s key) (g.withSettings policy maxDepth) =
          (cs.foldl (addParent s key) g).withSettings policy maxDepth :=
      List.foldl_hom (withSettings · policy maxDepth)
        (fun g c => addParent_withSettings g s c key)
    have hm (cs : List Node) (g : CallGraph) :
        cs.foldl (addMember s key) (g.withSettings policy maxDepth) =
          (cs.foldl (addMember s key) g).withSettings policy maxDepth :=
      List.foldl_hom (withSettings · policy maxDepth)
        (fun g c => addMember_withSettings g s c key)
    have he := hp (n.children.filter fun c => c.kind == .baseClause)
      { g with methods := g.methods.putNew key [] }
    split
    next => exact he
    next body _ =>
      rw [← hm]
      exact congrArg (List.foldl (addMember s key) · body.namedChildren) he

theorem addScript_withSettings :
    (g.withSettings policy maxDepth).addScript s =
      (g.addScript s).withSettings policy maxDepth := by
  unfold addScript
  apply List.foldl_hom (withSettings · policy maxDepth)
  intro g n
  split
  next => exact addFunction_withSettings g s n
  next =>
    split
    next => exact addClass_withSettings g s n
    next => rfl

end

theorem ofScripts_withSettings (policy policy' : Policy) (maxDepth maxDepth' : Int)
    (scripts : List Script) :
    (ofScripts policy maxDepth scripts).withSettings policy' maxDepth' =
      ofScripts policy' maxDepth' scripts := by
  have h : scripts.foldl addScript ((empty policy maxDepth).withSettings policy' maxDepth') =
      (scripts.foldl addScript (empty policy maxDepth)).withSettings policy' maxDepth' :=
    List.foldl_hom (withSettings · policy' maxDepth') (fun g s => addScript_withSettings g s)
  exact h.symm

theorem ofScripts_policy (policy : Policy) (maxDepth : Int) (scripts : List Script) :
    (ofScripts policy maxDepth scripts).policy = policy := by
  rw [← ofScripts_withSettings policy policy maxDepth maxDepth]
  rfl

theorem ofScripts_maxDepth (policy : Policy) (maxDepth : Int) (scripts : List Script) :
    (ofScripts policy maxDepth scripts).maxDepth = maxDepth := by
  rw [← ofScripts_withSettings policy policy maxDepth maxDepth]
  rfl

/-- The functions and methods of a graph that can be told apart by their written keys. -/
structure PlainKeys (g : CallGraph) : Prop where
  functions : ∀ name d, g.functions.find? name = some d → Unscoped name
  methods : ∀ cls table, g.methods.find? cls = some table →
    ∀ name d, table.find? name = some d → IsMemberName name

theorem PlainKeys.addFunction {g : CallGraph} {s : Script} {n : Node} (hg : g.PlainKeys)
    (hs : s.PlainNames) (hn : n ∈ s.root.preorder) (hk : n.kind = .functionDefinition) :
    (g.addFunction s n).PlainKeys := by
  unfold CallGraph.addFunction
  dsimp only
  split
  next => exact hg
  next =>
    refine ⟨fun name d h => ?_, hg.methods⟩
    rcases Table.find?_putNew_cases h with ⟨rfl, _⟩ | h
    · exact (hs.qualified n (hs.functions n hn hk)).lower
    · exact hg.functions name d h

theorem PlainKeys.addMember {g : CallGraph} {s : Script} {m : Node} (hg : g.PlainKeys)
    (hs : s.PlainNames) (hm : m ∈ s.root.preorder) (key : String) :
    (addMember s key g m).PlainKeys := by
  unfold CallGraph.addMember
  split
  next hk =>
    dsimp only
    split
    next => exact hg
    next =>
      refine ⟨hg.functions, fun cls table h name d hd => ?_⟩
      rcases Table.find?_put_cases h with ⟨rfl, rfl⟩ | h
      · rcases Table.find?_putNew_cases hd with ⟨rfl, _⟩ | hd
        · exact (hs.methods m hm hk).lower
        · cases ht : g.methods.find? cls with
          | none => simp [ht] at hd
          | some table => exact hg.methods cls table ht name d (by simpa [ht] using hd)
      · exact hg.methods cls table h name d hd
  next =>
    dsimp only
    split
    next => exact hg
    next => exact ⟨hg.functions, hg.methods⟩
  next => exact hg

theorem PlainKeys.addParent {g : CallGraph} (hg : g.PlainKeys) (s : Script) (key : String)
    (clause : Node) : (addParent s key g clause).PlainKeys := by
  unfold CallGraph.addParent
  split
  next => exact ⟨hg.functions, hg.methods⟩
  next => exact hg

theorem PlainKeys.addEntry {g : CallGraph} (hg : g.PlainKeys) (key : String) :
    PlainKeys { g with methods := g.methods.putNew key [] } := by
  refine ⟨hg.functions, fun cls table h name d hd => ?_⟩
  rcases Table.find?_putNew_cases h with ⟨_, rfl⟩ | h
  · cases hd
  · exact hg.methods cls table h name d hd

theorem PlainKeys.ofScripts (h : ∀ s ∈ scripts, s.PlainNames) :
    (ofScripts policy maxDepth scripts).PlainKeys := by
  apply ofScripts_induction
  · constructor
    · intro name d hd
      cases hd
    · intro cls table ht
      cases ht
  · intro g s hs n hn hk hg
    exact hg.addFunction (h s hs) hn hk
  · intro g s hs n hn _ hg
    apply addClass_induction hg
    · exact fun g hg => hg.addEntry _
    · exact fun g clause hg => hg.addParent s _ clause
    · intro g body hbody _ m hm hg
      have hbody := Node.mem_preorder_of_child (Node.mem_children_of_child? hbody)
      have hm := Node.mem_preorder_of_child (Node.mem_children_of_named hm)
      have hmember := Node.mem_preorder_trans n hbody hm
      exact hg.addMember (h s hs) (Node.mem_preorder_trans s.root hn hmember) _

end CallGraph

end Php

end PluginAudit
