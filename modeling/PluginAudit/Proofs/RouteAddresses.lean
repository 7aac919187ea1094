import PluginAudit.Package.Routes
import Mathlib.Data.List.Basic

namespace PluginAudit.Package

def Route.id : Route → String
  | .mk id _ _ => id

/-- A route stands at an address: what is in a route counts only if it is a group. -/
inductive Route.At : List Route → List Nat → Route → Prop where
  | here {routes : List Route} {i : Nat} {r : Route} (h : routes[i]? = some r) : At routes [i] r
  | inside {routes inner : List Route} {i : Nat} {id : String} {a : List Nat} {r : Route}
      (group : routes[i]? = some (.mk id (some "group") inner)) (h : At inner a r) :
      At routes (i :: a) r

/-- The path of an address, from a path on. -/
def addressFrom (path : String) (a : List Nat) : String :=
  a.foldl (fun path i => s!"{path}/routes[{i}]") path

/-- The path of an address. -/
def addressText (a : List Nat) : String :=
  addressFrom "" a

mutual

/-- A route and the routes in it, with their addresses from it on. -/
def Route.nodes : Route → List (List Nat × Route)
  | .mk id kind routes =>
    ([], .mk id kind routes) :: if kind == some "group" then nodesAll 0 routes else []

def Route.nodesAll (index : Nat) : List Route → List (List Nat × Route)
  | [] => []
  | r :: rest => (r.nodes.map fun e => (index :: e.1, e.2)) ++ nodesAll (index + 1) rest

end

mutual

theorem Route.visits_eq (path : String) (r : Route) :
    r.visits path = r.nodes.map fun e => (e.2.id, addressFrom path e.1) := by
  cases r with
  | mk id kind routes =>
    rw [visits, nodes, List.map_cons]
    split
    · rw [visitsAll_eq path 0 routes]
      rfl
    · rfl

theorem Route.visitsAll_eq (path : String) (index : Nat) (routes : List Route) :
    visitsAll path index routes =
      (nodesAll index routes).map fun e => (e.2.id, addressFrom path e.1) := by
  cases routes with
  | nil => rfl
  | cons r rest =>
    rw [visitsAll, nodesAll, List.map_append, List.map_map, visits_eq _ r, visitsAll_eq _ _ rest]
    rfl

end

/-- A route stands at an address from another route on. -/
def Route.Below (r : Route) (a : List Nat) (s : Route) : Prop :=
  (a = [] ∧ s = r) ∨ ∃ id inner, r = .mk id (some "group") inner ∧ At inner a s

theorem Route.at_cons_iff {routes : List Route} {i : Nat} {a : List Nat} {s : Route} :
    At routes (i :: a) s ↔ ∃ r, routes[i]? = some r ∧ r.Below a s := by
  constructor
  · intro h
    cases h with
    | here h => exact ⟨s, h, .inl ⟨rfl, rfl⟩⟩
    | inside group h => exact ⟨_, group, .inr ⟨_, _, rfl, h⟩⟩
  · rintro ⟨r, hr, ⟨rfl, rfl⟩ | ⟨id, inner, rfl, h⟩⟩
    · exact .here hr
    · exact .inside hr h

theorem Route.not_at_nil {routes : List Route} {s : Route} : ¬ At routes [] s := by
  rintro ⟨⟩

theorem Route.At.unique {routes : List Route} {a : List Nat} {r s : Route} (hr : At routes a r)
    (hs : At routes a s) : r = s := by
  induction hr with
  | here h =>
    cases hs with
    | here h' => exact Option.some.inj (h.symm.trans h')
    | inside _ h' => exact absurd h' not_at_nil
  | inside group h ih =>
    cases hs with
    | here _ => exact absurd h not_at_nil
    | inside group' h' =>
      cases group.symm.trans group'
      exact ih h'

mutual

theorem Route.mem_nodes {r s : Route} {a : List Nat} : (a, s) ∈ r.nodes ↔ r.Below a s := by
  cases r with
  | mk id kind routes =>
    rw [nodes, List.mem_cons, Prod.mk.injEq, Below]
    apply or_congr Iff.rfl
    split
    case isTrue hkind =>
      have inner : (a, s) ∈ nodesAll 0 routes ↔ ∃ i b, a = (0 + i) :: b ∧ At routes (i :: b) s :=
        mem_nodesAll
      rw [inner]
      have hgroup : kind = some "group" := by simpa using hkind
      constructor
      · rintro ⟨i, b, rfl, h⟩
        rw [Nat.zero_add]
        exact ⟨id, routes, by rw [hgroup], h⟩
      · rintro ⟨_, _, ⟨⟩, h⟩
        cases a with
        | nil => exact absurd h not_at_nil
        | cons i b => exact ⟨i, b, by rw [Nat.zero_add], h⟩
    case isFalse hkind =>
      constructor
      · intro h
        cases h
      · rintro ⟨_, _, ⟨⟩, -⟩
        exact absurd rfl hkind

theorem Route.mem_nodesAll {routes : List Route} {index : Nat} {a : List Nat} {s : Route} :
    (a, s) ∈ nodesAll index routes ↔ ∃ i b, a = (index + i) :: b ∧ At routes (i :: b) s := by
  cases routes with
  | nil =>
    constructor
    · intro h
      cases h
    · rintro ⟨i, b, -, h⟩
      obtain ⟨r, hr, -⟩ := at_cons_iff.1 h
      cases hr
  | cons r rest =>
    have later : (a, s) ∈ nodesAll (index + 1) rest ↔
        ∃ i b, a = (index + 1 + i) :: b ∧ At rest (i :: b) s := mem_nodesAll
    rw [nodesAll, List.mem_append, later]
    constructor
    · rintro (h | ⟨i, b, rfl, h⟩)
      · obtain ⟨e, he, heq⟩ := List.mem_map.1 h
        cases heq
        exact ⟨0, e.1, rfl, at_cons_iff.2 ⟨r, rfl, mem_nodes.1 he⟩⟩
      · obtain ⟨s', hs, hbelow⟩ := at_cons_iff.1 h
        exact ⟨i + 1, b, by rw [Nat.add_right_comm, Nat.add_assoc], at_cons_iff.2 ⟨s', hs, hbelow⟩⟩
    · rintro ⟨i, b, rfl, h⟩
      obtain ⟨s', hs, hbelow⟩ := at_cons_iff.1 h
      cases i with
      | zero =>
        cases hs
        exact .inl (List.mem_map.2 ⟨(b, s), mem_nodes.2 hbelow, rfl⟩)
      | succ i =>
        exact .inr ⟨i, b, by rw [Nat.add_right_comm, Nat.add_assoc], at_cons_iff.2 ⟨s', hs, hbelow⟩⟩

end

/-- The addresses of a list go up: a group comes before what is in it, and that before what comes
after the group. -/
def Rising (nodes : List (List Nat × Route)) : Prop :=
  nodes.Pairwise fun e f => e.1 < f.1

theorem Rising.below {nodes : List (List Nat × Route)} (h : Rising nodes) (index : Nat) :
    Rising (nodes.map fun e => (index :: e.1, e.2)) :=
  List.pairwise_map.2 (h.imp fun hlt => List.cons_lt_cons_self.2 hlt)

mutual

theorem Route.rising_nodes (r : Route) : Rising r.nodes := by
  cases r with
  | mk id kind routes =>
    rw [nodes]
    split
    case isTrue =>
      apply List.pairwise_cons.2 ⟨?_, rising_nodesAll 0 routes⟩
      rintro ⟨a, s⟩ h
      obtain ⟨i, b, rfl, -⟩ := mem_nodesAll.1 h
      exact List.nil_lt_cons _ _
    case isFalse => exact List.pairwise_singleton _ _

theorem Route.rising_nodesAll (index : Nat) (routes : List Route) :
    Rising (nodesAll index routes) := by
  cases routes with
  | nil => exact .nil
  | cons r rest =>
    rw [nodesAll]
    apply List.pairwise_append.2
    refine ⟨(rising_nodes r).below index, rising_nodesAll (index + 1) rest, ?_⟩
    intro e he f hf
    obtain ⟨e, -, rfl⟩ := List.mem_map.1 he
    obtain ⟨a, s⟩ := f
    obtain ⟨i, b, rfl, -⟩ := mem_nodesAll.1 hf
    exact List.cons_lt_cons_iff.2 (.inl (by omega))

end

end PluginAudit.Package
