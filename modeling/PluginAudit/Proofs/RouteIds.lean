import PluginAudit.Proofs.RouteAddresses
import PluginAudit.Proofs.Separators
import Mathlib

namespace PluginAudit

namespace Table

variable {α : Type}

theorem find?_eq_none_iff (t : Table α) (key : String) :
    t.find? key = none ↔ ∀ e ∈ t, e.1 ≠ key := by
  induction t with
  | nil => simp
  | cons e rest ih =>
    by_cases h : e.1 = key
    · simp [find?, h]
    · simp [find?, h, ih]

theorem put_of_find?_eq_none {t : Table α} {key : String} (h : t.find? key = none) (value : α) :
    t.put key value = t ++ [(key, value)] := by
  induction t with
  | nil => rfl
  | cons e rest ih =>
    rw [find?] at h
    split at h
    case isTrue => cases h
    case isFalse hkey => rw [put, if_neg hkey, ih h, List.cons_append]

end Table

namespace Package

open Text (strip)
open RouteRegistry (place)

abbrev Node := List Nat × Route

/-- The ids of routes with their paths. -/
def visitsOf (nodes : List Node) : List (String × String) :=
  nodes.map fun e => (e.2.id, addressText e.1)

/-- The entries of a registry for some routes; there is none for a blank id. -/
def entriesOf (file : String) (nodes : List Node) : RouteRegistry :=
  (nodes.filter fun e => strip e.2.id ≠ "").map fun e => (strip e.2.id, (file, addressText e.1))

variable {file : String} {r left : RouteRegistry} {done pre : List Node} {e : Node}

theorem visitsOf_append (xs ys : List Node) : visitsOf (xs ++ ys) = visitsOf xs ++ visitsOf ys :=
  List.map_append

/-- What is wrong with a route of a file that comes after others. -/
def faultAt (file : String) (r : RouteRegistry) (done : List Node) (e : Node) : Option RouteFault :=
  match Table.find? (visitsOf done) e.2.id with
  | some first => some (.repeated e.2.id file first (addressText e.1))
  | none =>
    if strip e.2.id = "" then none
    else (Table.find? (r ++ entriesOf file done) (strip e.2.id)).map fun first =>
      .taken (strip e.2.id) (place first.1 first.2) (place file (addressText e.1))

/-- A step of the registration: the fault of the next route, or its id is taken down. -/
theorem registerAll_cons (file : String) (r : RouteRegistry) (done rest : List Node) (e : Node) :
    registerAll file (r ++ entriesOf file done) (visitsOf done) (visitsOf (e :: rest)) =
      match faultAt file r done e with
      | some f => (r ++ entriesOf file done, .error f)
      | none => registerAll file (r ++ entriesOf file (done ++ [e])) (visitsOf (done ++ [e]))
          (visitsOf rest) := by
  change registerAll _ _ _ ((e.2.id, addressText e.1) :: visitsOf rest) = _
  rw [registerAll, faultAt]
  cases hraw : Table.find? (visitsOf done) e.2.id with
  | some first => rfl
  | none =>
    have hvisits : Table.put (visitsOf done) e.2.id (addressText e.1) = visitsOf (done ++ [e]) := by
      rw [Table.put_of_find?_eq_none hraw, visitsOf_append]
      rfl
    dsimp only
    rw [hvisits]
    by_cases hblank : strip e.2.id = ""
    · have hentries : entriesOf file (done ++ [e]) = entriesOf file done := by
        simp [entriesOf, hblank]
      simp [RouteRegistry.register, hblank, hentries]
    · have hentries : entriesOf file (done ++ [e]) =
          entriesOf file done ++ [(strip e.2.id, (file, addressText e.1))] := by
        simp [entriesOf, hblank]
      rw [hentries, ← List.append_assoc]
      cases hname : Table.find? (r ++ entriesOf file done) (strip e.2.id) with
      | some first => simp [RouteRegistry.register, hblank, hname]
      | none => simp [RouteRegistry.register, hblank, hname]

/-- No route of a list is at fault if it comes after those before it. -/
def Clear (file : String) (r : RouteRegistry) : List Node → List Node → Prop
  | _, [] => True
  | done, e :: rest => faultAt file r done e = none ∧ Clear file r (done ++ [e]) rest

theorem registerAll_cases (file : String) (r : RouteRegistry) (done rest : List Node) :
    (Clear file r done rest ∧
      registerAll file (r ++ entriesOf file done) (visitsOf done) (visitsOf rest) =
        (r ++ entriesOf file (done ++ rest), .ok ())) ∨
      ∃ pre e post fault left, rest = pre ++ e :: post ∧ Clear file r done pre ∧
        faultAt file r (done ++ pre) e = some fault ∧
        registerAll file (r ++ entriesOf file done) (visitsOf done) (visitsOf rest) =
          (left, .error fault) := by
  induction rest generalizing done with
  | nil => exact .inl ⟨trivial, by rw [List.append_nil]; rfl⟩
  | cons e rest ih =>
    rw [registerAll_cons]
    cases hfault : faultAt file r done e with
    | some f =>
      exact .inr ⟨[], e, rest, f, _, rfl, trivial, by rw [List.append_nil, hfault], rfl⟩
    | none =>
      obtain ⟨hclear, hrest⟩ | ⟨pre, e', post, f, left, rfl, hclear, hf, hrest⟩ := ih (done ++ [e])
      · refine .inl ⟨⟨hfault, hclear⟩, ?_⟩
        rw [List.append_assoc, List.singleton_append] at hrest
        exact hrest
      · refine .inr ⟨e :: pre, e', post, f, left, rfl, ⟨hfault, hclear⟩, ?_, hrest⟩
        rw [List.append_assoc, List.singleton_append] at hf
        exact hf

/-- A route file with its routes. -/
structure RouteFile where
  name : String
  value : Value
  routes : List Route
  formed : readRouteFile name value = .ok routes

/-- A route with some id stands at an address of a file. -/
def RouteFile.Holds (f : RouteFile) (a : List Nat) (id : String) : Prop :=
  ∃ r, Route.At f.routes a r ∧ r.id = id

/-- What is wrong with the route at an address of a file that is checked after others. -/
inductive Offends (before : List RouteFile) (f : RouteFile) (a : List Nat) : RouteFault → Prop where
  /-- Its id stands further up in the file. -/
  | repeated {b : List Nat} {id : String} (here : f.Holds a id) (there : f.Holds b id)
      (earlier : b < a) :
      Offends before f a (.repeated id f.name (addressText b) (addressText a))
  /-- Its id does not, but its name stands further up in the file or in one before it. -/
  | taken {g : RouteFile} {b : List Nat} {id other : String} (here : f.Holds a id)
      (there : g.Holds b other) (earlier : g ∈ before ∨ g = f ∧ b < a)
      (same : strip other = strip id) (named : strip id ≠ "") (fresh : ∀ c < a, ¬ f.Holds c id) :
      Offends before f a
        (.taken (strip id) (place g.name (addressText b)) (place f.name (addressText a)))

/-- The offence of the first route in the order of addresses that offends. -/
def FirstOffence (before : List RouteFile) (f : RouteFile) (fault : RouteFault) : Prop :=
  ∃ a, Offends before f a fault ∧ ∀ b < a, ∀ other, ¬ Offends before f b other

def RouteFile.nodes (f : RouteFile) : List Node :=
  Route.nodesAll 0 f.routes

variable {before : List RouteFile} {f g : RouteFile} {a b : List Nat} {id : String}

theorem RouteFile.mem_nodes {s : Route} : (a, s) ∈ f.nodes ↔ Route.At f.routes a s := by
  rw [nodes, Route.mem_nodesAll]
  constructor
  · rintro ⟨i, b, rfl, h⟩
    rwa [Nat.zero_add]
  · intro h
    cases a with
    | nil => exact absurd h Route.not_at_nil
    | cons i b => exact ⟨i, b, by rw [Nat.zero_add], h⟩

theorem RouteFile.holds_of_mem (h : e ∈ f.nodes) : f.Holds e.1 e.2.id :=
  ⟨e.2, mem_nodes.1 h, rfl⟩

/-- The routes before one of them are those at smaller addresses. -/
theorem RouteFile.mem_before {post : List Node} (h : f.nodes = pre ++ e :: post) {x : Node} :
    x ∈ pre ↔ x ∈ f.nodes ∧ x.1 < e.1 := by
  have rising : Rising (pre ++ e :: post) := h ▸ Route.rising_nodesAll 0 f.routes
  obtain ⟨-, hpost, hpre⟩ := List.pairwise_append.1 rising
  rw [h]
  constructor
  · intro hx
    exact ⟨List.mem_append_left _ hx, hpre x hx e List.mem_cons_self⟩
  · rintro ⟨hx, hlt⟩
    rcases List.mem_append.1 hx with hx | hx
    · exact hx
    · rcases List.mem_cons.1 hx with rfl | hx
      · exact absurd hlt (lt_irrefl _)
      · exact absurd hlt (lt_asymm ((List.pairwise_cons.1 hpost).1 x hx))

theorem exists_of_mem_visitsOf {nodes : List Node} {x : String × String} (h : x ∈ visitsOf nodes) :
    ∃ n ∈ nodes, x = (n.2.id, addressText n.1) := by
  obtain ⟨n, hn, rfl⟩ := List.mem_map.1 h
  exact ⟨n, hn, rfl⟩

theorem mem_entriesOf {nodes : List Node} {x : String × String × String} :
    x ∈ entriesOf file nodes ↔
      ∃ n ∈ nodes, strip n.2.id ≠ "" ∧ x = (strip n.2.id, (file, addressText n.1)) := by
  rw [entriesOf, List.mem_map]
  constructor
  · rintro ⟨n, hn, rfl⟩
    obtain ⟨hmem, hnamed⟩ := List.mem_filter.1 hn
    exact ⟨n, hmem, of_decide_eq_true hnamed, rfl⟩
  · rintro ⟨n, hmem, hnamed, rfl⟩
    exact ⟨n, List.mem_filter.2 ⟨hmem, decide_eq_true hnamed⟩, rfl⟩

/-- A registry holds the names of the routes of some files, with their places. -/
def Describes (before : List RouteFile) (r : RouteRegistry) : Prop :=
  ∀ x, x ∈ r ↔ ∃ g ∈ before, ∃ n ∈ g.nodes,
    strip n.2.id ≠ "" ∧ x = (strip n.2.id, (g.name, addressText n.1))

/-- No route before one of them has an id that is not found among theirs. -/
theorem fresh_of_find?_eq_none {post : List Node} (h : f.nodes = pre ++ e :: post)
    (hraw : Table.find? (visitsOf pre) id = none) : ∀ c < e.1, ¬ f.Holds c id := by
  rintro c hlt ⟨s, hs, rfl⟩
  have hpre : (c, s) ∈ pre := (RouteFile.mem_before h).2 ⟨RouteFile.mem_nodes.2 hs, hlt⟩
  exact (Table.find?_eq_none_iff _ _).1 hraw _ (List.mem_map_of_mem hpre) rfl

theorem offends_of_faultAt (hr : Describes before r) {post : List Node}
    (h : f.nodes = pre ++ e :: post) {fault : RouteFault}
    (hfault : faultAt f.name r pre e = some fault) : Offends before f e.1 fault := by
  have here : f.Holds e.1 e.2.id := RouteFile.holds_of_mem (by simp [h])
  unfold faultAt at hfault
  split at hfault
  case h_1 first hfirst =>
    cases hfault
    obtain ⟨n, hn, heq⟩ := exists_of_mem_visitsOf (Table.mem_of_find? hfirst)
    obtain ⟨hmem, hlt⟩ := (RouteFile.mem_before h).1 hn
    obtain ⟨hid, rfl⟩ := Prod.mk.inj heq
    exact .repeated here (hid ▸ RouteFile.holds_of_mem hmem) hlt
  case h_2 hraw =>
    have fresh := fresh_of_find?_eq_none h hraw
    split at hfault
    case isTrue => cases hfault
    case isFalse named =>
      obtain ⟨first, hfirst, rfl⟩ := Option.map_eq_some_iff.1 hfault
      rcases List.mem_append.1 (Table.mem_of_find? hfirst) with hmem | hmem
      · obtain ⟨g, hg, n, hn, -, heq⟩ := (hr _).1 hmem
        obtain ⟨hname, rfl⟩ := Prod.mk.inj heq
        exact .taken here (RouteFile.holds_of_mem hn) (.inl hg) hname.symm named fresh
      · obtain ⟨n, hn, -, heq⟩ := mem_entriesOf.1 hmem
        obtain ⟨hname, rfl⟩ := Prod.mk.inj heq
        obtain ⟨hnode, hlt⟩ := (RouteFile.mem_before h).1 hn
        exact .taken here (RouteFile.holds_of_mem hnode) (.inr ⟨rfl, hlt⟩) hname.symm named fresh

theorem not_offends_of_faultAt (hr : Describes before r) {post : List Node}
    (h : f.nodes = pre ++ e :: post) (hfault : faultAt f.name r pre e = none) (fault : RouteFault) :
    ¬ Offends before f e.1 fault := by
  have hid {id : String} (here : f.Holds e.1 id) : e.2.id = id := by
    obtain ⟨s, hs, rfl⟩ := here
    have he : Route.At f.routes e.1 e.2 := RouteFile.mem_nodes.1 (by simp [h])
    rw [he.unique hs]
  unfold faultAt at hfault
  split at hfault
  case h_1 => cases hfault
  case h_2 hraw =>
    rintro (⟨here, there, earlier⟩ | ⟨here, there, earlier, same, named, fresh⟩)
    · cases hid here
      exact fresh_of_find?_eq_none h hraw _ earlier there
    · cases hid here
      rw [if_neg named, Option.map_eq_none_iff, Table.find?_eq_none_iff] at hfault
      obtain ⟨s, hs, rfl⟩ := there
      rcases earlier with hg | ⟨rfl, hlt⟩
      · apply hfault (strip s.id, _)
        · apply List.mem_append_left
          exact (hr _).2 ⟨_, hg, (_, s), RouteFile.mem_nodes.2 hs, same ▸ named, rfl⟩
        · exact same
      · apply hfault (strip s.id, _)
        · apply List.mem_append_right
          have hpre := (RouteFile.mem_before h).2 ⟨RouteFile.mem_nodes.2 hs, hlt⟩
          exact mem_entriesOf.2 ⟨_, hpre, same ▸ named, rfl⟩
        · exact same

theorem Clear.faultAt_eq_none {done rest : List Node} (hclear : Clear file r done rest)
    {post : List Node} (h : rest = pre ++ e :: post) : faultAt file r (done ++ pre) e = none := by
  induction pre generalizing done rest with
  | nil =>
    subst h
    rw [List.append_nil]
    exact hclear.1
  | cons n pre ih =>
    subst h
    have later := ih hclear.2 rfl
    rwa [List.append_assoc, List.singleton_append] at later

theorem checkRoutes_eq (f : RouteFile) (r : RouteRegistry) :
    checkRoutes r f.name f.value = registerAll f.name r [] (visitsOf f.nodes) := by
  rw [checkRoutes, f.formed]
  dsimp only
  rw [Route.visitsAll_eq]
  rfl

theorem checkRoutes_cases (f : RouteFile) (r : RouteRegistry) :
    (Clear f.name r [] f.nodes ∧
      checkRoutes r f.name f.value = (r ++ entriesOf f.name f.nodes, .ok ())) ∨
      ∃ pre e post fault left, f.nodes = pre ++ e :: post ∧ Clear f.name r [] pre ∧
        faultAt f.name r pre e = some fault ∧
        checkRoutes r f.name f.value = (left, .error fault) := by
  have cases := registerAll_cases f.name r [] f.nodes
  have start : r ++ entriesOf f.name [] = r := List.append_nil r
  rw [start] at cases
  rw [checkRoutes_eq]
  exact cases

theorem registry_of_ok (h : checkRoutes r f.name f.value = (left, .ok ())) :
    left = r ++ entriesOf f.name f.nodes := by
  obtain ⟨-, hok⟩ | ⟨_, _, _, _, _, -, -, -, herror⟩ := checkRoutes_cases f r
  · cases h.symm.trans hok
    rfl
  · cases h.symm.trans herror

theorem Offends.exists_node {fault : RouteFault} (h : Offends before f a fault) :
    ∃ s, (a, s) ∈ f.nodes := by
  cases h with
  | repeated here | taken here =>
    obtain ⟨s, hs, -⟩ := here
    exact ⟨s, RouteFile.mem_nodes.2 hs⟩

/-- The check of a file fails with its first offence, or there is none. -/
theorem check_explained (hr : Describes before r) (f : RouteFile) :
    ((checkRoutes r f.name f.value).2 = .ok () ∧ ∀ a fault, ¬ Offends before f a fault) ∨
      ∃ fault, (checkRoutes r f.name f.value).2 = .error fault ∧ FirstOffence before f fault := by
  -- Only the routes of the file can offend, and each of them stands behind those before it.
  obtain ⟨hclear, hok⟩ | ⟨pre, e, post, fault, left, hnodes, hclear, hfault, herror⟩ :=
    checkRoutes_cases f r
  · left
    refine ⟨by rw [hok], fun a fault h => ?_⟩
    obtain ⟨s, hs⟩ := h.exists_node
    obtain ⟨pre, post, hsplit⟩ := List.append_of_mem hs
    exact not_offends_of_faultAt hr hsplit (hclear.faultAt_eq_none hsplit) fault h
  · right
    refine ⟨fault, by rw [herror], e.1, offends_of_faultAt hr hnodes hfault, ?_⟩
    -- What comes before the route at fault is clear, and so does not offend.
    intro b hlt other h
    obtain ⟨s, hs⟩ := h.exists_node
    obtain ⟨p, q, rfl⟩ := List.append_of_mem ((RouteFile.mem_before hnodes).2 ⟨hs, hlt⟩)
    have hsplit : f.nodes = p ++ (b, s) :: (q ++ e :: post) := by
      rw [hnodes, List.append_assoc, List.cons_append]
    exact not_offends_of_faultAt hr hsplit (hclear.faultAt_eq_none rfl) other h

/-- The registry after some files. -/
def registryAfter (files : List RouteFile) : RouteRegistry :=
  files.foldl (fun r f => (checkRoutes r f.name f.value).1) []

/-- What the check of a file comes to after the checks of others. -/
def outcomeAfter (before : List RouteFile) (f : RouteFile) : Except RouteFault Unit :=
  (checkRoutes (registryAfter before) f.name f.value).2

/-- All files pass that are checked one after the other. -/
def AllPass (files : List RouteFile) : Prop :=
  ∀ before f after, files = before ++ f :: after → outcomeAfter before f = .ok ()

/-- No id occurs twice in a file, and no name in all files. -/
structure UniqueIds (files : List RouteFile) : Prop where
  ids : ∀ f ∈ files, ∀ a b id, f.Holds a id → f.Holds b id → a = b
  names : ∀ f ∈ files, ∀ a b id other, f.Holds a id → f.Holds b other →
    strip id = strip other → strip id ≠ "" → a = b
  apart : files.Pairwise fun f g => ∀ a b id other, f.Holds a id → g.Holds b other →
    strip id = strip other → strip id = ""

variable {files : List RouteFile}

theorem allPass_nil : AllPass [] := by
  rintro before f after heq
  cases before <;> cases heq

theorem allPass_concat :
    AllPass (files ++ [f]) ↔ AllPass files ∧ outcomeAfter files f = .ok () := by
  constructor
  · intro h
    refine ⟨?_, h files f [] rfl⟩
    rintro before g after rfl
    exact h before g (after ++ [f]) (by rw [List.append_assoc, List.cons_append])
  · rintro ⟨hfiles, hf⟩ before g after heq
    rcases List.eq_nil_or_concat after with rfl | ⟨after, x, rfl⟩
    · obtain ⟨rfl, hg⟩ := List.append_inj' heq rfl
      cases hg
      exact hf
    · have hlast : files ++ [f] = (before ++ g :: after) ++ [x] := by
        rw [heq, List.concat_eq_append, List.append_assoc, List.cons_append]
      exact hfiles before g after (List.append_inj' hlast rfl).1

theorem registryAfter_concat (files : List RouteFile) (f : RouteFile) :
    registryAfter (files ++ [f]) = (checkRoutes (registryAfter files) f.name f.value).1 := by
  rw [registryAfter, List.foldl_append]
  rfl

theorem describes_registryAfter (h : AllPass files) : Describes files (registryAfter files) := by
  induction files using List.reverseRecOn with
  | nil =>
    intro x
    simp [registryAfter]
  | append_singleton files f ih =>
    obtain ⟨hfiles, hf⟩ := allPass_concat.1 h
    have hleft : registryAfter (files ++ [f]) =
        registryAfter files ++ entriesOf f.name f.nodes := by
      rw [registryAfter_concat]
      exact registry_of_ok (Prod.ext rfl hf)
    intro x
    rw [hleft, List.mem_append, ih hfiles x, mem_entriesOf]
    constructor
    · rintro (⟨g, hg, named⟩ | named)
      · exact ⟨g, List.mem_append_left _ hg, named⟩
      · exact ⟨f, by simp, named⟩
    · rintro ⟨g, hg, named⟩
      rcases List.mem_append.1 hg with hg | hg
      · exact .inl ⟨g, hg, named⟩
      · cases List.mem_singleton.1 hg
        exact .inr named

theorem exists_offends {other : String} (here : f.Holds a id) (there : g.Holds b other)
    (earlier : g ∈ before ∨ g = f ∧ b < a) (same : strip other = strip id) (named : strip id ≠ "") :
    ∃ fault, Offends before f a fault := by
  by_cases fresh : ∀ c < a, ¬ f.Holds c id
  · exact ⟨_, .taken here there earlier same named fresh⟩
  · simp only [not_forall, not_not] at fresh
    obtain ⟨c, hlt, hc⟩ := fresh
    exact ⟨_, .repeated here hc hlt⟩

/-- Of two routes of a file with one id or one name, the one further down offends. -/
theorem not_lt_of_not_offends {other : String} (hnone : ∀ a fault, ¬ Offends before f a fault)
    (here : f.Holds a id) (there : f.Holds b other)
    (same : other = id ∨ strip other = strip id ∧ strip id ≠ "") : ¬ b < a := by
  intro hlt
  rcases same with rfl | ⟨same, named⟩
  · exact hnone a _ (.repeated here there hlt)
  · obtain ⟨fault, hoff⟩ := exists_offends here there (.inr ⟨rfl, hlt⟩) same named
    exact hnone a fault hoff

theorem UniqueIds.not_offends (h : UniqueIds (files ++ [f])) (a : List Nat) (fault : RouteFault) :
    ¬ Offends files f a fault := by
  have hf : f ∈ files ++ [f] := by simp
  obtain ⟨-, -, hlast⟩ := List.pairwise_append.1 h.apart
  rintro (⟨here, there, earlier⟩ | ⟨here, there, earlier, same, named, fresh⟩)
  · exact absurd (h.ids f hf _ _ _ there here) earlier.ne
  · rcases earlier with hg | ⟨rfl, hlt⟩
    · have blank := hlast _ hg f (List.mem_singleton.2 rfl) _ _ _ _ there here same
      exact named (same ▸ blank)
    · exact absurd (h.names _ hf _ _ _ _ there here same (same ▸ named)) hlt.ne

/-- Another file leaves the ids unique if and only if none of its routes offends. -/
theorem uniqueIds_concat :
    UniqueIds (files ++ [f]) ↔ UniqueIds files ∧ ∀ a fault, ¬ Offends files f a fault := by
  constructor
  · intro h
    have hfiles : UniqueIds files :=
      ⟨fun g hg => h.ids g (List.mem_append_left _ hg),
        fun g hg => h.names g (List.mem_append_left _ hg), (List.pairwise_append.1 h.apart).1⟩
    exact ⟨hfiles, h.not_offends⟩
  · rintro ⟨h, hnone⟩
    refine ⟨?_, ?_, ?_⟩
    · intro g hg
      rcases List.mem_append.1 hg with hg | hg
      · exact h.ids g hg
      · cases List.mem_singleton.1 hg
        intro a b id ha hb
        have hab := not_lt_of_not_offends hnone hb ha (.inl rfl)
        have hba := not_lt_of_not_offends hnone ha hb (.inl rfl)
        exact le_antisymm (not_lt.1 hba) (not_lt.1 hab)
    · intro g hg
      rcases List.mem_append.1 hg with hg | hg
      · exact h.names g hg
      · cases List.mem_singleton.1 hg
        intro a b id other ha hb same named
        have hab := not_lt_of_not_offends hnone hb ha (.inr ⟨same, same ▸ named⟩)
        have hba := not_lt_of_not_offends hnone ha hb (.inr ⟨same.symm, named⟩)
        exact le_antisymm (not_lt.1 hba) (not_lt.1 hab)
    · refine List.pairwise_append.2 ⟨h.apart, List.pairwise_singleton _ _, ?_⟩
      intro g hg x hx a b id other ha hb same
      cases List.mem_singleton.1 hx
      by_contra named
      obtain ⟨fault, hoff⟩ := exists_offends hb ha (.inl hg) same (same ▸ named)
      exact hnone b fault hoff

/-- Route files pass if and only if their ids are unique. -/
theorem allPass_iff (files : List RouteFile) : AllPass files ↔ UniqueIds files := by
  -- Each file is judged by those before it, so the induction takes away the last.
  induction files using List.reverseRecOn with
  | nil =>
    constructor
    · intro _
      exact ⟨by simp, by simp, .nil⟩
    · intro _
      exact allPass_nil
  | append_singleton files f ih =>
    rw [allPass_concat, uniqueIds_concat, ← ih]
    apply and_congr_right
    intro hfiles
    obtain ⟨hok, hnone⟩ | ⟨fault, herror, a, hoff, -⟩ :=
      check_explained (describes_registryAfter hfiles) f
    · exact ⟨fun _ => hnone, fun _ => hok⟩
    · constructor
      · intro hok
        cases hok.symm.trans herror
      · intro hnone
        exact absurd hoff (hnone a fault)

/-- A registry after the check of a file that succeeds: the names of its routes are in it, besides
those that were. -/
theorem mem_keys_of_ok (h : checkRoutes r f.name f.value = (left, .ok ())) (name : String) :
    name ∈ left.keys ↔
      name ∈ r.keys ∨ name ≠ "" ∧ ∃ a id, f.Holds a id ∧ strip id = name := by
  rw [registry_of_ok h, Table.keys, List.map_append, List.mem_append]
  apply or_congr_right
  rw [List.mem_map]
  constructor
  · rintro ⟨x, hx, rfl⟩
    obtain ⟨n, hn, named, rfl⟩ := mem_entriesOf.1 hx
    exact ⟨named, _, _, RouteFile.holds_of_mem hn, rfl⟩
  · rintro ⟨named, a, _, ⟨s, hs, rfl⟩, rfl⟩
    exact ⟨_, mem_entriesOf.2 ⟨(a, s), RouteFile.mem_nodes.2 hs, named, rfl⟩, rfl⟩

theorem addressText_closes (ha : a ≠ []) : Text.Closes (addressText a).toList := by
  have last : addressText a =
      s!"{addressText a.dropLast}/routes[{a.getLast ha}]" := by
    conv_lhs => rw [← List.dropLast_append_getLast ha, addressText, addressFrom, List.foldl_append]
    rfl
  have bracket : Text.Closes "]".toList := ⟨']', rfl, by decide +kernel⟩
  rw [last, String.toList_append]
  exact bracket.append _

/-- Only blanks in front of the name of a file are not told. -/
theorem place_addressText (hname : Text.Opens file.toList) (ha : a ≠ []) :
    place file (addressText a) = file ++ " " ++ addressText a := by
  have opens : Text.Opens (file ++ " " ++ addressText a).toList := by
    rw [String.toList_append, String.toList_append, List.append_assoc]
    exact hname.append _
  have closes : Text.Closes (file ++ " " ++ addressText a).toList := by
    rw [String.toList_append]
    exact (addressText_closes ha).append _
  have stripped := Text.strip_of_opens opens closes
  rwa [String.ofList_toList] at stripped

/-- Checks of route files one after the other with one registry. All pass if and only if no id
occurs twice in a file and no name twice in all of them. The first that fails has the fault of its
first route that offends. A file that passes adds the names of its routes to the registry. -/
theorem route_ids_unique (files : List RouteFile) :
    (AllPass files ↔ UniqueIds files) ∧
    (∀ before f after fault, files = before ++ f :: after → AllPass before →
      outcomeAfter before f = .error fault → FirstOffence before f fault) ∧
    (∀ f ∈ files, ∀ r left, checkRoutes r f.name f.value = (left, .ok ()) → ∀ name,
      name ∈ left.keys ↔ name ∈ r.keys ∨ name ≠ "" ∧ ∃ a id, f.Holds a id ∧ strip id = name) ∧
    ∀ f ∈ files, Text.Opens f.name.toList → ∀ a id, f.Holds a id →
      place f.name (addressText a) = f.name ++ " " ++ addressText a := by
  refine ⟨allPass_iff files, ?_, ?_, ?_⟩
  · rintro before f after fault rfl hpass hfault
    obtain ⟨hok, -⟩ | ⟨other, hother, hoff⟩ := check_explained (describes_registryAfter hpass) f
    · cases hok.symm.trans hfault
    · cases hother.symm.trans hfault
      exact hoff
  · intro f _ r left h name
    exact mem_keys_of_ok h name
  · rintro f - hname a id ⟨s, hs, -⟩
    exact place_addressText hname fun hnil => Route.not_at_nil (hnil ▸ hs)

example : addressText [0, 2] = "/routes[0]/routes[2]" := by decide

/-- A route with an id, in words. -/
def routeValue (id : String) (more : List (String × Value)) : Value :=
  .object (("id", .text id) :: ("desc", .text "d") :: more)

/-- A file with a group in which there is one route. -/
def groupedNews : RouteFile where
  name := "a.json"
  value := .object [("routes", .list [routeValue "home" [("type", .text "group"),
    ("routes", .list [routeValue "news " []])]])]
  routes := [.mk "home" (some "group") [.mk "news " none []]]
  formed := by cbv

/-- A file with a route of the same name. -/
def plainNews : RouteFile where
  name := "b.json"
  value := .object [("routes", .list [routeValue " news" []])]
  routes := [.mk " news" none []]
  formed := by cbv

theorem second_news_located :
    AllPass [groupedNews] ∧
    outcomeAfter [groupedNews] plainNews =
      .error (.taken "news" "a.json /routes[0]/routes[0]" "b.json /routes[0]") ∧
    FirstOffence [groupedNews] plainNews
      (.taken "news" "a.json /routes[0]/routes[0]" "b.json /routes[0]") ∧
    ¬ UniqueIds [groupedNews, plainNews] := by
  obtain ⟨allPass, first, -⟩ := route_ids_unique [groupedNews, plainNews]
  have alone : outcomeAfter [] groupedNews = .ok () := by
    rw [outcomeAfter, checkRoutes_eq]
    decide +kernel
  have passed : AllPass ([] ++ [groupedNews]) := allPass_concat.2 ⟨allPass_nil, alone⟩
  have registry : registryAfter [groupedNews] =
      [("home", "a.json", "/routes[0]"), ("news", "a.json", "/routes[0]/routes[0]")] := by
    rw [registryAfter, List.foldl_cons, List.foldl_nil, checkRoutes_eq]
    decide +kernel
  have fails : outcomeAfter [groupedNews] plainNews =
      .error (.taken "news" "a.json /routes[0]/routes[0]" "b.json /routes[0]") := by
    rw [outcomeAfter, registry, checkRoutes_eq]
    decide +kernel
  refine ⟨passed, fails, first [groupedNews] plainNews [] _ rfl passed fails, fun unique => ?_⟩
  have pass := allPass.2 unique [groupedNews] plainNews [] rfl
  cases pass.symm.trans fails

end Package
end PluginAudit
