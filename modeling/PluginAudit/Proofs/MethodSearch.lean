import PluginAudit.Php.CallGraph
import Mathlib

namespace PluginAudit

namespace Table

variable {α : Type} {t : Table α} {key : String}

/-- The size of the entries whose keys are not among those seen. -/
def weight (size : α → Nat) (seen : List String) (t : Table α) : Nat :=
  ((List.filter (fun e => e.1 ∉ seen) t).map fun e => size e.2).sum

theorem weight_cons_le (size : α → Nat) (t : Table α) (key : String) (seen : List String) :
    t.weight size (key :: seen) ≤ t.weight size seen := by
  induction t with
  | nil => exact Nat.le_refl 0
  | cons e rest ih =>
    simp only [weight, List.filter_cons, List.mem_cons, not_or] at ih ⊢
    by_cases hseen : e.1 ∈ seen
    · simpa [hseen] using ih
    · by_cases hkey : e.1 = key
      · simp only [hkey, not_true, false_and, decide_false] at ih ⊢
        have : key ∉ seen := hkey ▸ hseen
        simp only [this, not_false_eq_true, decide_true, if_true, List.map_cons, List.sum_cons]
        exact Nat.le_add_left_of_le ih
      · simpa [hseen, hkey] using ih

/-- An entry that is seen now weighs no more. -/
theorem weight_cons_of_find? (size : α → Nat) {value : α} {seen : List String}
    (hkey : key ∉ seen) (h : t.find? key = some value) :
    t.weight size (key :: seen) + size value ≤ t.weight size seen := by
  induction t with
  | nil => cases h
  | cons e rest ih =>
    rw [find?] at h
    by_cases he : e.1 = key
    · rw [if_pos (by simpa using he)] at h
      cases h
      have hrest := weight_cons_le size rest key seen
      simp only [weight, List.filter_cons, he, List.mem_cons, true_or, not_true, decide_false,
        hkey, not_false_eq_true, decide_true, if_true, List.map_cons, List.sum_cons] at hrest ⊢
      simpa [Nat.add_comm] using hrest
    · rw [if_neg (by simpa using he)] at h
      have hrest := ih h
      simp only [weight, List.filter_cons] at hrest ⊢
      by_cases hseen : e.1 ∈ seen
      · simpa [hseen] using hrest
      · simp only [List.mem_cons, he, hseen, or_self, not_false_eq_true, decide_true, if_true,
          List.map_cons, List.sum_cons] at hrest ⊢
        omega

end Table

namespace Php.CallGraph

section Links

variable (g : CallGraph) (method : String)

/-- The method as a class or trait declares it itself. -/
def own? (key : String) : Option Definition :=
  ((g.methods.find? key).getD []).find? method

def traitsOf (key : String) : List String :=
  (g.traits.find? key).getD []

/-- The traits of a class in order of use, and then its parent. -/
def links (key : String) : List String :=
  g.traitsOf key ++ (g.parents.find? key).toList

/-- From one class to another by any number of links. -/
def Linked : String → String → Prop :=
  Relation.ReflTransGen fun a b => b ∈ g.links a

/-- The classes that lie a number of links away, in order and with repetitions. -/
def level : Nat → List String → List String
  | 0, keys => keys
  | n + 1, keys => level n (keys.flatMap g.links)

/-- The definition of the method that lies nearest to some classes, the first one of its level. -/
def Nearest (keys : List String) (d : Definition) : Prop :=
  ∃ n, (g.level n keys).findSome? (g.own? method) = some d ∧
    ∀ i < n, (g.level i keys).findSome? (g.own? method) = none

end Links

variable {g : CallGraph} {method key : String}

theorem searchMethod_cons (g : CallGraph) (method : String) (seen : List String) (fuel : Nat)
    (key : String) (pending : List String) :
    g.searchMethod method seen (fuel + 1) (key :: pending) =
      if key ∈ seen then g.searchMethod method seen fuel pending
      else match g.own? method key with
        | some d => some d
        | none => g.searchMethod method (key :: seen) fuel (pending ++ g.links key) := by
  rw [searchMethod]
  simp only [List.contains_iff_mem]
  rfl

section Levels

theorem level_append (n : Nat) (xs ys : List String) :
    g.level n (xs ++ ys) = g.level n xs ++ g.level n ys := by
  induction n generalizing xs ys with
  | zero => rfl
  | succ n ih => rw [level, List.flatMap_append, ih, level, level]

theorem linked_of_mem_level {n : Nat} {keys : List String} {x : String}
    (h : x ∈ g.level n keys) : ∃ k ∈ keys, g.Linked k x := by
  induction n generalizing keys with
  | zero => exact ⟨x, h, .refl⟩
  | succ n ih =>
    obtain ⟨u, hu, hx⟩ := ih h
    obtain ⟨k, hk, hlink⟩ := List.mem_flatMap.1 hu
    exact ⟨k, hk, .head hlink hx⟩

theorem Nearest.cons {keys : List String} {d : Definition}
    (hkeys : keys.findSome? (g.own? method) = none)
    (h : g.Nearest method (keys.flatMap g.links) d) : g.Nearest method keys d := by
  obtain ⟨n, hn, hbefore⟩ := h
  refine ⟨n + 1, hn, ?_⟩
  intro i hi
  cases i with
  | zero => exact hkeys
  | succ i => exact hbefore i (by omega)

theorem Nearest.unique {keys : List String} {d d' : Definition} (h : g.Nearest method keys d)
    (h' : g.Nearest method keys d') : d = d' := by
  obtain ⟨n, hn, hbefore⟩ := h
  obtain ⟨n', hn', hbefore'⟩ := h'
  have hle : n ≤ n' := by
    by_contra hlt
    have hnone := hbefore n' (by omega)
    rw [hn'] at hnone
    cases hnone
  have hge : n' ≤ n := by
    by_contra hlt
    have hnone := hbefore' n (by omega)
    rw [hn] at hnone
    cases hnone
  have heq : n = n' := Nat.le_antisymm hle hge
  subst heq
  rw [hn] at hn'
  exact Option.some.inj hn'

theorem Nearest.declared {d : Definition} (h : g.Nearest method [key] d) :
    ∃ k, g.Linked key k ∧ g.own? method k = some d := by
  obtain ⟨n, hn, -⟩ := h
  obtain ⟨x, hx, hd⟩ := List.exists_of_findSome?_eq_some hn
  obtain ⟨k, hk, hlinked⟩ := linked_of_mem_level hx
  obtain rfl := List.mem_singleton.1 hk
  exact ⟨x, hlinked, hd⟩

end Levels

section Search

/-- Working through a queue to which the links of each class are added, seen or not. -/
inductive Finds (g : CallGraph) (method : String) : List String → Definition → Prop
  | here {key rest d} : g.own? method key = some d → Finds g method (key :: rest) d
  | later {key rest d} : g.own? method key = none → Finds g method (rest ++ g.links key) d →
      Finds g method (key :: rest) d

theorem Finds.skip {front rest : List String} {d : Definition}
    (hfront : ∀ k ∈ front, g.own? method k = none)
    (h : g.Finds method (rest ++ front.flatMap g.links) d) : g.Finds method (front ++ rest) d := by
  induction front generalizing rest with
  | nil => simpa using h
  | cons k front ih =>
    obtain ⟨hk, hrest⟩ := List.forall_mem_cons.1 hfront
    apply Finds.later hk
    have hmore : g.Finds method (rest ++ g.links k ++ front.flatMap g.links) d := by
      rwa [List.append_assoc, ← List.flatMap_cons]
    have hfinds := ih hrest hmore
    rwa [← List.append_assoc] at hfinds

/-- A queue holds the rest of one level and the links of those that stood before it. -/
theorem Finds.split {queue : List String} {d : Definition} (h : g.Finds method queue d) :
    ∀ done todo : List String, queue = todo ++ done.flatMap g.links →
      todo.findSome? (g.own? method) = some d ∨ todo.findSome? (g.own? method) = none ∧
        g.Nearest method ((done ++ todo).flatMap g.links) d := by
  induction h with
  | @here key rest d hd =>
    intro done todo hqueue
    cases todo with
    | nil =>
      refine .inr ⟨rfl, 0, ?_, by simp⟩
      rw [List.append_nil, level, ← List.nil_append (done.flatMap _), ← hqueue]
      simp [hd]
    | cons k todo =>
      cases hqueue
      exact .inl (by simp [hd])
  | @later key rest d hnone hfinds ih =>
    intro done todo hqueue
    cases todo with
    | nil =>
      have hlevel : done.flatMap g.links = key :: rest := hqueue.symm
      have hnear := ih [key] rest (by simp)
      refine .inr ⟨rfl, ?_⟩
      rw [List.append_nil, hlevel]
      obtain hd | ⟨hrest, hnear⟩ := hnear
      · exact ⟨0, by simpa [level, hnone] using hd, by simp⟩
      · exact Nearest.cons (by simpa [hnone] using hrest) hnear
    | cons k todo =>
      cases hqueue
      have hnear := ih (done ++ [key]) todo (by simp)
      simpa [hnone] using hnear

theorem Finds.nearest {d : Definition} (h : g.Finds method [key] d) : g.Nearest method [key] d := by
  obtain hd | ⟨hnone, hnear⟩ := h.split [] [key] rfl
  · exact ⟨0, hd, by simp⟩
  · exact Nearest.cons hnone hnear

/-- A queue from which only classes are left out that are known or stand in it before. -/
inductive Thins : List String → List String → List String → Prop
  | nil {known} : Thins known [] []
  | keep {known key pending queue} : Thins (key :: known) pending queue →
      Thins known (key :: pending) (key :: queue)
  | drop {known key pending queue} : key ∈ known → Thins known pending queue →
      Thins known pending (key :: queue)

namespace Thins

variable {known known' pending queue more : List String}

theorem mono (h : Thins known pending queue) (hsub : known ⊆ known') :
    Thins known' pending queue := by
  induction h generalizing known' with
  | nil => exact .nil
  | keep _ ih => exact .keep (ih (List.cons_subset_cons _ hsub))
  | drop hkey _ ih => exact .drop (hsub hkey) (ih hsub)

theorem refl (known queue : List String) : Thins known queue queue := by
  induction queue generalizing known with
  | nil => exact .nil
  | cons k queue ih => exact .keep (ih (k :: known))

theorem append (h : Thins known pending queue) (more : List String) :
    Thins known (pending ++ more) (queue ++ more) := by
  induction h with
  | nil => exact .refl _ more
  | keep _ ih => exact .keep ih
  | drop hkey _ ih => exact .drop hkey ih

theorem append_known (h : Thins known pending queue)
    (hmore : ∀ k ∈ more, k ∈ known ∨ k ∈ pending) : Thins known pending (queue ++ more) := by
  induction h with
  | @nil known =>
    induction more with
    | nil => exact .nil
    | cons k more ih =>
      obtain ⟨hk, hrest⟩ := List.forall_mem_cons.1 hmore
      exact .drop (hk.resolve_right (by simp)) (ih hrest)
  | @keep known key pending queue _ ih =>
    apply Thins.keep
    apply ih
    intro k hk
    rw [List.mem_cons]
    obtain hk | hk := hmore k hk
    · exact .inl (.inr hk)
    · exact (List.mem_cons.1 hk).imp_left .inl
  | drop hkey _ ih => exact .drop hkey (ih hmore)

/-- In front of the first class that is kept there are only known ones. -/
theorem head (h : Thins known (key :: pending) queue) :
    ∃ front rest, queue = front ++ key :: rest ∧ (∀ k ∈ front, k ∈ known) ∧
      Thins (key :: known) pending rest := by
  generalize hpending : key :: pending = all at h
  induction h with
  | nil => cases hpending
  | keep h _ =>
    cases hpending
    exact ⟨[], _, rfl, by simp, h⟩
  | @drop known k all queue hk _ ih =>
    obtain ⟨front, rest, rfl, hfront, hrest⟩ := ih hpending
    exact ⟨k :: front, rest, rfl, List.forall_mem_cons.2 ⟨hk, hfront⟩, hrest⟩

end Thins

/-- The classes that the search is done with declare nothing, and what they are linked to is done
with or pending. -/
structure Searched (g : CallGraph) (method : String) (seen pending : List String) : Prop where
  silent : ∀ k ∈ seen, g.own? method k = none
  closed : ∀ k ∈ seen, ∀ l ∈ g.links k, l ∈ seen ∨ l ∈ pending

namespace Searched

variable {seen pending : List String}

theorem skip (h : g.Searched method seen (key :: pending)) (hkey : key ∈ seen) :
    g.Searched method seen pending := by
  refine ⟨h.silent, fun k hk l hl => ?_⟩
  obtain hseen | hpending := h.closed k hk l hl
  · exact .inl hseen
  · obtain rfl | hpending := List.mem_cons.1 hpending
    · exact .inl hkey
    · exact .inr hpending

theorem step (h : g.Searched method seen (key :: pending)) (hown : g.own? method key = none) :
    g.Searched method (key :: seen) (pending ++ g.links key) := by
  refine ⟨List.forall_mem_cons.2 ⟨hown, h.silent⟩, fun k hk l hl => ?_⟩
  rw [List.mem_cons, List.mem_append]
  obtain rfl | hk := List.mem_cons.1 hk
  · exact .inr (.inr hl)
  · obtain hseen | hpending := h.closed k hk l hl
    · exact .inl (.inr hseen)
    · exact (List.mem_cons.1 hpending).imp .inl .inl

end Searched

theorem finds_of_searchMethod {fuel : Nat} {seen pending queue : List String} {d : Definition}
    (hsearched : g.Searched method seen pending) (hthins : Thins seen pending queue)
    (h : g.searchMethod method seen fuel pending = some d) : g.Finds method queue d := by
  induction fuel generalizing seen pending queue with
  | zero => cases h
  | succ fuel ih =>
    cases pending with
    | nil => cases h
    | cons key pending =>
      obtain ⟨front, rest, rfl, hfront, hrest⟩ := hthins.head
      -- The classes left out of the queue are passed over; their links have been seen to.
      apply Finds.skip fun k hk => hsearched.silent k (hfront k hk)
      have hlinks : ∀ l ∈ front.flatMap g.links, l ∈ key :: seen ∨ l ∈ pending := by
        intro l hl
        obtain ⟨k, hk, hl⟩ := List.mem_flatMap.1 hl
        obtain hseen | hpending := hsearched.closed k (hfront k hk) l hl
        · exact .inl (List.mem_cons_of_mem key hseen)
        · obtain rfl | hpending := List.mem_cons.1 hpending
          · exact .inl List.mem_cons_self
          · exact .inr hpending
      have hthins' := hrest.append_known hlinks
      rw [searchMethod_cons] at h
      split at h
      case isTrue hseen =>
        have hsub : key :: seen ⊆ seen := List.cons_subset.2 ⟨hseen, List.Subset.refl seen⟩
        have hskip := hsearched.skip hseen
        apply Finds.later (hsearched.silent key hseen)
        exact ih hskip ((hthins'.mono hsub).append_known (hskip.closed key hseen)) h
      case isFalse =>
        cases hown : g.own? method key with
        | some found =>
          rw [hown] at h
          cases h
          exact .here hown
        | none =>
          rw [hown] at h
          exact .later hown (ih (hsearched.step hown) (hthins'.append _) h)

/-- A bound for what can still become pending. -/
def unseen (g : CallGraph) (seen : List String) : Nat :=
  g.traits.weight List.length seen + g.parents.weight (fun _ => 1) seen

theorem unseen_cons (g : CallGraph) {key : String} {seen : List String} (hkey : key ∉ seen) :
    g.unseen (key :: seen) + (g.links key).length ≤ g.unseen seen := by
  have htraits : g.traits.weight List.length (key :: seen) + (g.traitsOf key).length ≤
      g.traits.weight List.length seen := by
    cases h : g.traits.find? key with
    | none => simpa [traitsOf, h] using Table.weight_cons_le List.length g.traits key seen
    | some used => simpa [traitsOf, h] using Table.weight_cons_of_find? List.length hkey h
  have hparents : g.parents.weight (fun _ => 1) (key :: seen) +
      (g.parents.find? key).toList.length ≤ g.parents.weight (fun _ => 1) seen := by
    cases h : g.parents.find? key with
    | none => simpa using Table.weight_cons_le (fun _ => 1) g.parents key seen
    | some parent => simpa using Table.weight_cons_of_find? (fun _ => 1) hkey h
  rw [links, List.length_append, unseen, unseen]
  omega

/-- A search that is not cut off and finds nothing has seen all that is linked. -/
theorem searched_of_searchMethod {fuel : Nat} {seen pending : List String}
    (hfuel : pending.length + g.unseen seen < fuel) (hsearched : g.Searched method seen pending)
    (h : g.searchMethod method seen fuel pending = none) :
    ∃ all, seen ⊆ all ∧ pending ⊆ all ∧ g.Searched method all [] := by
  induction fuel generalizing seen pending with
  | zero => omega
  | succ fuel ih =>
    cases pending with
    | nil => exact ⟨seen, List.Subset.refl seen, List.nil_subset seen, hsearched⟩
    | cons key pending =>
      rw [List.length_cons] at hfuel
      rw [searchMethod_cons] at h
      split at h
      case isTrue hseen =>
        obtain ⟨all, hsub, hpending, hall⟩ := ih (by omega) (hsearched.skip hseen) h
        exact ⟨all, hsub, List.cons_subset.2 ⟨hsub hseen, hpending⟩, hall⟩
      case isFalse hseen =>
        cases hown : g.own? method key with
        | some d =>
          rw [hown] at h
          cases h
        | none =>
          rw [hown] at h
          have hless := g.unseen_cons hseen
          have hfuel' : (pending ++ g.links key).length + g.unseen (key :: seen) < fuel := by
            rw [List.length_append]
            omega
          obtain ⟨all, hsub, hpending, hall⟩ := ih hfuel' (hsearched.step hown) h
          obtain ⟨hkey, hsub⟩ := List.cons_subset.1 hsub
          exact ⟨all, hsub, List.cons_subset.2 ⟨hkey, (List.append_subset.1 hpending).1⟩, hall⟩

theorem unseen_lt_searchBound (g : CallGraph) : 1 + g.unseen [] < g.searchBound := by
  have hfold (traits : Table (List String)) (start : Nat) :
      traits.foldl (fun n e => n + e.2.length) start =
        start + traits.weight List.length [] := by
    induction traits generalizing start with
    | nil => rfl
    | cons e rest ih =>
      rw [List.foldl_cons, ih]
      simp [Table.weight, Nat.add_assoc]
  have hparents : g.parents.weight (fun _ => 1) [] = List.length g.parents := by
    simp [Table.weight]
  rw [searchBound, hfold, unseen, hparents]
  omega

theorem nearest_of_findMethod {cls : String} {d : Definition}
    (h : g.findMethod cls method = some d) : g.Nearest (Text.lower method) [classKey cls] d := by
  have hsearched : g.Searched (Text.lower method) [] [classKey cls] := ⟨by simp, by simp⟩
  exact (finds_of_searchMethod hsearched (.refl [] _) h).nearest

theorem own?_of_findMethod_none {cls k : String} (h : g.findMethod cls method = none)
    (hk : g.Linked (classKey cls) k) : g.own? (Text.lower method) k = none := by
  have hsearched : g.Searched (Text.lower method) [] [classKey cls] := ⟨by simp, by simp⟩
  obtain ⟨all, -, hstart, hall⟩ := searched_of_searchMethod g.unseen_lt_searchBound hsearched h
  have hmem : k ∈ all := by
    induction hk with
    | refl => exact hstart List.mem_cons_self
    | tail _ hlink ih => exact (hall.closed _ ih _ hlink).resolve_right List.not_mem_nil
  exact hall.silent k hmem

theorem findMethod_eq_none_iff (g : CallGraph) (cls method : String) :
    g.findMethod cls method = none ↔
      ∀ k, g.Linked (classKey cls) k → g.own? (Text.lower method) k = none := by
  constructor
  · intro h k hk
    exact own?_of_findMethod_none h hk
  · intro h
    by_contra hsome
    obtain ⟨d, hd⟩ := Option.ne_none_iff_exists'.1 hsome
    obtain ⟨k, hk, hown⟩ := (nearest_of_findMethod hd).declared
    rw [h k hk] at hown
    cases hown

theorem findMethod_eq_some_iff (g : CallGraph) (cls method : String) (d : Definition) :
    g.findMethod cls method = some d ↔ g.Nearest (Text.lower method) [classKey cls] d := by
  constructor
  · exact nearest_of_findMethod
  · intro h
    cases hfound : g.findMethod cls method with
    | some d' => rw [(nearest_of_findMethod hfound).unique h]
    | none =>
      obtain ⟨k, hk, hown⟩ := h.declared
      rw [own?_of_findMethod_none hfound hk] at hown
      cases hown

end Search

end Php.CallGraph

end PluginAudit
