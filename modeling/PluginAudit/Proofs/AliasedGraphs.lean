import PluginAudit.Proofs.AliasedNames
import PluginAudit.Proofs.FirstDefinitions
import PluginAudit.Proofs.MethodSearch
import PluginAudit.Proofs.ReturnChains

namespace PluginAudit

namespace Php

variable {a : Alias} {names names' : Names}

namespace Names.KnowAs

variable {n n' : Node} (h : Names.KnowAs a names names')

include h

theorem resolves (hn : Node.Respells a n n') (hname : n.isName = true) :
    names.resolveClass n.text n.start = names'.resolveClass n'.text n'.start := by
  rw [← hn.text_of_isName hname]
  exact h.resolveClass n.start n'.start n.text

theorem candidates (ha : a.Proper) (hn : Node.Alike a n n') (hname : n.isName = true)
    (hfresh : Text.lower (Text.strip n.text) ≠ Text.lower a.knownAs) :
    names.functionCandidates n.text n.start = names'.functionCandidates n'.text n'.start := by
  obtain hn | hn := hn
  · rw [← hn.text_of_isName hname]
    exact h.functionCandidates n.start n'.start hfresh
  · obtain ⟨hidentifier, hblank, hlower⟩ := hn.old
    obtain ⟨hold, hnew⟩ := h.renamed n.start n'.start ⟨hidentifier, hblank⟩ hlower
      ⟨ha.knownAs.1, ha.knownAs.2.1⟩
    rw [hn.new, hold, hnew]

theorem globalFunction (ha : a.Proper) (hn : Node.Alike a n n') (hname : n.isName = true)
    (hfresh : Text.lower (Text.strip n.text) ≠ Text.lower a.knownAs) :
    names.globalFunction n.text n.start = names'.globalFunction n'.text n'.start := by
  rw [Names.globalFunction, Names.globalFunction, h.candidates ha hn hname hfresh]

end Names.KnowAs

/-- A kind of node that declares nothing, calls nothing and tells nothing of a variable. -/
def Kind.IsInert (k : Kind) : Prop :=
  k ∈ [.namespaceUseDeclaration, .token, .namespaceUseClause, .name, .program]

instance (k : Kind) : Decidable k.IsInert :=
  inferInstanceAs (Decidable (k ∈ _))

theorem Node.isInert_of_import {decl : Node} (hdecl : decl.kind = .namespaceUseDeclaration)
    (hinner : ∀ n ∈ preorderAll decl.children, n.kind ∈ [.token, .namespaceUseClause, .name]) :
    ∀ n ∈ decl.preorder, n.kind.IsInert := by
  rw [preorder_eq, List.forall_mem_cons]
  refine ⟨by rw [hdecl]; decide, fun n hn => ?_⟩
  have hkind := hinner n hn
  simp only [Kind.IsInert, List.mem_cons, List.not_mem_nil, or_false] at hkind ⊢
  tauto

namespace Definition

/-- A function or method of the file, as it stands there and with some calls respelled. -/
structure Respelled (a : Alias) (d d' : Definition) : Prop where
  name : d.name = d'.name
  className : d.className = d'.className
  names : d.names.KnowAs a d'.names
  node : Node.Alike a d.node d'.node

/-- A definition as both graphs hold it. -/
def Alike (a : Alias) (d d' : Definition) : Prop :=
  d = d' ∨ Respelled a d d'

theorem Respelled.returns {d d' : Definition} (h : Respelled a d d') :
    List.Forall₂ (Node.Alike a) d.returns d'.returns := by
  rw [Definition.returns, Definition.returns]
  obtain ⟨hb, hb'⟩ | ⟨body, body', hb, hb', hbody⟩ := rel_cases (h.node.child? .body)
  · rw [hb, hb']
    exact .nil
  · rw [hb, hb']
    apply List.rel_filterMap (fun _ _ hn => Node.Alike.returned? hn)
    exact rel_filter (fun _ _ hn => by rw [Node.Alike.kind hn]) hbody.scope

end Definition

namespace CallGraph

/-- What one declaration adds to a graph. -/
inductive Entry where
  | function (key : String) (d : Definition)
  | cls (key : String)
  | parent (key name : String)
  | method (key : String) (d : Definition)
  | traits (key : String) (used : List String)

def enter (g : CallGraph) : Entry → CallGraph
  | .function key d => { g with functions := g.functions.putNew key d }
  | .cls key => { g with methods := g.methods.putNew key [] }
  | .parent key name => { g with parents := g.parents.put key name }
  | .method key d =>
    { g with methods := g.methods.put key (((g.methods.find? key).getD []).putNew d.name d) }
  | .traits key used => { g with traits := g.traits.put key ((g.traits.find? key).getD [] ++ used) }

section Entries

variable (s : Script) (key : String) (n : Node)

def functionEntries : List Entry :=
  let name := textOf (n.child? .name)
  if name == "" then []
  else
    let key := Text.lower (qualified s n name)
    [.function key ⟨key, n, s.path, s.names, ""⟩]

def memberEntries : List Entry :=
  match n.kind with
  | .methodDeclaration =>
    let method := Text.lower (textOf (n.child? .name))
    if method == "" then [] else [.method key ⟨method, n, s.path, s.names, key⟩]
  | .useDeclaration =>
    let used := (n.namedChildren.filter Node.isName).map fun n =>
      classKey (s.names.resolveClass n.text n.start)
    if used.isEmpty then [] else [.traits key used]
  | _ => []

def parentEntries : List Entry :=
  match n.namedChildren.find? Node.isName with
  | some n => [.parent key (classKey (s.names.resolveClass n.text n.start))]
  | none => []

def bodyEntries : List Entry :=
  match n.child? .body with
  | none => []
  | some body => body.namedChildren.flatMap (memberEntries s key)

def classEntries : List Entry :=
  if textOf (n.child? .name) == "" then []
  else
    .cls (keyOf s n) ::
      (n.children.filter fun c => c.kind == .baseClause).flatMap (parentEntries s (keyOf s n)) ++
      bodyEntries s (keyOf s n) n

/-- What a node of a file declares. -/
def entries : List Entry :=
  if n.kind == .functionDefinition then functionEntries s n
  else if n.kind.isClassLike then classEntries s n
  else []

variable (g : CallGraph)

theorem addFunction_eq : g.addFunction s n = (functionEntries s n).foldl enter g := by
  unfold addFunction functionEntries
  dsimp only
  split <;> rfl

theorem addMember_eq : addMember s key g n = (memberEntries s key n).foldl enter g := by
  by_cases hmethod : n.kind = .methodDeclaration
  · rw [addMember, memberEntries, hmethod]
    dsimp only
    split <;> rfl
  by_cases huse : n.kind = .useDeclaration
  · rw [addMember, memberEntries, huse]
    dsimp only
    split <;> rfl
  · have hadd : addMember s key g n = g := by
      unfold addMember
      split
      · exact absurd ‹_› hmethod
      · exact absurd ‹_› huse
      · rfl
    have hnone : memberEntries s key n = [] := by
      unfold memberEntries
      split
      · exact absurd ‹_› hmethod
      · exact absurd ‹_› huse
      · rfl
    rw [hadd, hnone]
    rfl

theorem addParent_eq : addParent s key g n = (parentEntries s key n).foldl enter g := by
  rw [addParent, parentEntries]
  cases n.namedChildren.find? Node.isName <;> rfl

theorem foldl_enter_flatMap (f : Node → List Entry) (add : CallGraph → Node → CallGraph)
    (hadd : ∀ g n, add g n = (f n).foldl enter g) (ns : List Node) :
    ns.foldl add g = (ns.flatMap f).foldl enter g := by
  rw [List.foldl_flatMap]
  congr
  funext g n
  exact hadd g n

theorem addClass_eq : g.addClass s n = (classEntries s n).foldl enter g := by
  have hparents (g : CallGraph) (clauses : List Node) :
      clauses.foldl (addParent s (keyOf s n)) g =
        (clauses.flatMap (parentEntries s (keyOf s n))).foldl enter g :=
    foldl_enter_flatMap g _ _ (fun g n => addParent_eq s _ n g) clauses
  have hmembers (g : CallGraph) (members : List Node) :
      members.foldl (addMember s (keyOf s n)) g =
        (members.flatMap (memberEntries s (keyOf s n))).foldl enter g :=
    foldl_enter_flatMap g _ _ (fun g n => addMember_eq s _ n g) members
  rw [addClass, classEntries, bodyEntries]
  dsimp only
  split
  case isTrue => rfl
  case isFalse =>
    rw [List.cons_append, List.foldl_cons, List.foldl_append, ← hparents]
    cases n.child? .body with
    | none => rfl
    | some body => exact hmembers _ body.namedChildren

/-- A graph takes the declarations of a file in one after the other. -/
theorem addScript_eq : g.addScript s = (s.root.preorder.flatMap (entries s)).foldl enter g := by
  apply foldl_enter_flatMap
  intro g n
  rw [entries]
  split
  case isTrue => exact addFunction_eq s n g
  case isFalse =>
    split
    case isTrue => exact addClass_eq s n g
    case isFalse => rfl

end Entries

/-- The same declaration, or one of a definition that both files have. -/
inductive Entry.Alike (a : Alias) : Entry → Entry → Prop
  | same (e : Entry) : Alike a e e
  | function {key : String} {d d' : Definition} : d.Respelled a d' →
      Alike a (.function key d) (.function key d')
  | method {key : String} {d d' : Definition} : d.Respelled a d' →
      Alike a (.method key d) (.method key d')

/-- Two graphs that differ in the spelling of calls only. -/
structure Alike (a : Alias) (g g' : CallGraph) : Prop where
  policy : g.policy = g'.policy
  maxDepth : g.maxDepth = g'.maxDepth
  functions : Table.Rel (Definition.Alike a) g.functions g'.functions
  methods : Table.Rel (Table.Rel (Definition.Alike a)) g.methods g'.methods
  parents : g.parents = g'.parents
  traits : g.traits = g'.traits

theorem Alike.refl (g : CallGraph) : Alike a g g where
  policy := rfl
  maxDepth := rfl
  functions := .refl (fun _ => .inl rfl) _
  methods := .refl (.refl fun _ => .inl rfl) _
  parents := rfl
  traits := rfl

variable {g g' : CallGraph}

theorem Alike.enter_function (h : g.Alike a g') {d d' : Definition} (hd : d.Alike a d')
    (key : String) : (g.enter (.function key d)).Alike a (g'.enter (.function key d')) :=
  { h with functions := h.functions.putNew hd key }

theorem Alike.enter_method (h : g.Alike a g') {d d' : Definition} (hd : d.Alike a d')
    (key : String) : (g.enter (.method key d)).Alike a (g'.enter (.method key d')) := by
  have hname : d.name = d'.name := by
    obtain rfl | hd := hd
    · rfl
    · exact hd.name
  have htable : Table.Rel (Definition.Alike a) ((g.methods.find? key).getD [])
      ((g'.methods.find? key).getD []) :=
    rel_getD (h.methods.find? key) .nil
  have hmethods := h.methods.put (htable.putNew hd d.name) key
  nth_rewrite 2 [hname] at hmethods
  exact { h with methods := hmethods }

theorem Alike.enter (h : g.Alike a g') {e e' : Entry} (he : e.Alike a e') :
    (g.enter e).Alike a (g'.enter e') := by
  cases he with
  | function hd => exact h.enter_function (.inr hd) _
  | method hd => exact h.enter_method (.inr hd) _
  | same =>
    cases e with
    | function key d => exact h.enter_function (.inl rfl) key
    | method key d => exact h.enter_method (.inl rfl) key
    | cls key => exact { h with methods := h.methods.putNew .nil key }
    | parent key name => exact { h with parents := by rw [CallGraph.enter, h.parents]; rfl }
    | traits key used => exact { h with traits := by rw [CallGraph.enter, h.traits]; rfl }

theorem Alike.foldl_enter (h : g.Alike a g') {es es' : List Entry}
    (hes : List.Forall₂ (Entry.Alike a) es es') :
    (es.foldl CallGraph.enter g).Alike a (es'.foldl CallGraph.enter g') := by
  induction hes generalizing g g' with
  | nil => exact h
  | cons he _ ih => exact ih (h.enter he)

theorem Alike.addScript (h : g.Alike a g') (s : Script) :
    (g.addScript s).Alike a (g'.addScript s) := by
  rw [addScript_eq, addScript_eq]
  exact h.foldl_enter (List.forall₂_same.2 fun _ _ => .same _)

section Declared

variable {s s' : Script} {n n' : Node} (hs : s.names.KnowAs a s'.names)

include hs

theorem qualified_alike (name : String) : qualified s n name = qualified s' n' name := by
  obtain ⟨hq, hq'⟩ := hs.qualify n.start n'.start name
  exact hq.trans hq'.symm

theorem functionEntries_alike (hn : Node.Alike a n n') (hk : n.kind.isFunctionLike = true) :
    List.Forall₂ (Entry.Alike a) (functionEntries s n) (functionEntries s' n') := by
  have hname : textOf (n.child? .name) = textOf (n'.child? .name) := by
    rw [textOf, textOf, hn.definedName (.inl hk)]
  rw [functionEntries, functionEntries, ← hname, ← qualified_alike hs]
  dsimp only
  split
  case isTrue => exact .nil
  case isFalse => exact .cons (.function ⟨rfl, rfl, hs, hn⟩) .nil

theorem classNames_alike {f : Node → String}
    (hf : ∀ n, f n = classKey (s.names.resolveClass n.text n.start)) {f' : Node → String}
    (hf' : ∀ n, f' n = classKey (s'.names.resolveClass n.text n.start))
    {ns ns' : List Node} (hns : List.Forall₂ (Node.Respells a) ns ns') :
    (ns.filter Node.isName).map f = (ns'.filter Node.isName).map f' := by
  induction hns with
  | nil => rfl
  | @cons n n' ns ns' hn _ ih =>
    have hisName : n.isName = n'.isName := Node.Alike.isName (.inl hn)
    rw [List.filter_cons, List.filter_cons, ← hisName]
    split
    case isTrue hname => rw [List.map_cons, List.map_cons, ih, hf, hf', hs.resolves hn hname]
    case isFalse => exact ih

theorem memberEntries_alike (key : String) (hn : Node.Alike a n n') :
    List.Forall₂ (Entry.Alike a) (memberEntries s key n) (memberEntries s' key n') := by
  rw [memberEntries, memberEntries, ← hn.kind]
  split
  case h_1 hmethod =>
    have hname : textOf (n.child? .name) = textOf (n'.child? .name) := by
      rw [textOf, textOf, hn.definedName (.inl (by rw [hmethod]; rfl))]
    rw [← hname]
    dsimp only
    split
    case isTrue => exact .nil
    case isFalse => exact .cons (.method ⟨rfl, rfl, hs, hn⟩) .nil
  case h_2 huse =>
    have hused := classNames_alike hs (fun _ => rfl) (fun _ => rfl)
      (hn.namedChildren_of_ne (by rw [huse]; decide))
    rw [← hused]
    exact List.forall₂_same.2 fun _ _ => .same _
  case h_3 => exact .nil

theorem parentEntries_alike (key : String) (hn : Node.Alike a n n')
    (hk : n.kind = .baseClause) : parentEntries s key n = parentEntries s' key n' := by
  have hparent : Option.Rel (Node.Respells a) (n.namedChildren.find? Node.isName)
      (n'.namedChildren.find? Node.isName) :=
    rel_find? (fun _ _ hc => Node.Alike.isName (.inl hc))
      (hn.namedChildren_of_ne (by rw [hk]; decide))
  rw [parentEntries, parentEntries]
  obtain ⟨hc, hc'⟩ | ⟨c, c', hc, hc', hrespells⟩ := rel_cases hparent
  · rw [hc, hc']
  · rw [hc, hc']
    dsimp only
    rw [hs.resolves hrespells (List.find?_some hc)]

theorem bodyEntries_alike (key : String) (hn : Node.Alike a n n') :
    List.Forall₂ (Entry.Alike a) (bodyEntries s key n) (bodyEntries s' key n') := by
  rw [bodyEntries, bodyEntries]
  obtain ⟨hb, hb'⟩ | ⟨body, body', hb, hb', hbody⟩ := rel_cases (hn.child? .body)
  · rw [hb, hb']
    exact .nil
  · rw [hb, hb']
    exact rel_flatMap hbody.namedChildren fun _ _ _ hm => memberEntries_alike hs key hm

theorem classEntries_alike (hn : Node.Alike a n n') (hk : n.kind.isClassLike = true) :
    List.Forall₂ (Entry.Alike a) (classEntries s n) (classEntries s' n') := by
  have hname : textOf (n.child? .name) = textOf (n'.child? .name) := by
    rw [textOf, textOf, hn.definedName (.inr hk)]
  have hkey : keyOf s n = keyOf s' n' := by
    rw [keyOf, keyOf, ← hname, qualified_alike hs]
  have hclauses : List.Forall₂ (Node.Alike a) (n.children.filter fun c => c.kind == .baseClause)
      (n'.children.filter fun c => c.kind == .baseClause) :=
    rel_filter (fun _ _ hc => by rw [Node.Alike.kind hc]) hn.children
  rw [classEntries, classEntries, ← hname, ← hkey]
  split
  case isTrue => exact .nil
  case isFalse =>
    refine List.rel_append (.cons (.same _) ?_) (bodyEntries_alike hs _ hn)
    apply rel_flatMap hclauses
    intro c hc c' halike
    rw [parentEntries_alike hs _ halike (beq_iff_eq.1 (List.mem_filter.1 hc).2)]
    exact List.forall₂_same.2 fun _ _ => .same _

/-- Every node of the file declares the same in both spellings. -/
theorem entries_alike (hn : Node.Alike a n n') :
    List.Forall₂ (Entry.Alike a) (entries s n) (entries s' n') := by
  rw [entries, entries, ← hn.kind]
  split
  case isTrue hk => exact functionEntries_alike hs hn (by rw [beq_iff_eq.1 hk]; rfl)
  case isFalse =>
    split
    case isTrue hk => exact classEntries_alike hs hn hk
    case isFalse => exact .nil

end Declared

theorem entries_of_inert (s : Script) {n : Node} (h : n.kind.IsInert) : entries s n = [] := by
  have hk : n.kind ≠ .functionDefinition ∧ n.kind.isClassLike = false := by
    simp only [Kind.IsInert, List.mem_cons, List.not_mem_nil, or_false] at h
    rcases h with hk | hk | hk | hk | hk <;> rw [hk] <;> exact ⟨by decide, rfl⟩
  rw [entries, if_neg (by simpa using hk.1), if_neg (by simp [hk.2])]

theorem Alike.addRespelled {s s' : Script} (h : g.Alike a g') (ha : a.Proper)
    (hs : s.Respelled a s') : (g.addScript s).Alike a (g'.addScript s') := by
  have hnames := hs.knowAs ha
  obtain ⟨before, after, before', after', decl, hroot, hroot', hbefore, hafter, hdecl, -, hinner⟩ :=
    hs.trees
  have hrelated {ns ns' : List Node} (hns : Node.RespellsAll a .program ns ns') :
      List.Forall₂ (Entry.Alike a) ((ns.flatMap Node.preorder).flatMap (entries s))
        ((ns'.flatMap Node.preorder).flatMap (entries s')) := by
    apply rel_flatMap (rel_flatMap hns.forall₂ fun _ _ _ hn => hn.preorder)
    intro n _ n' hn
    exact entries_alike hnames hn
  have hnothing : decl.preorder.flatMap (entries s') = [] := by
    rw [List.flatMap_eq_nil_iff]
    intro n hn
    exact entries_of_inert s' (Node.isInert_of_import hdecl hinner n hn)
  rw [addScript_eq, addScript_eq]
  apply h.foldl_enter
  rw [Node.preorder_eq, Node.preorder_eq, List.flatMap_cons, List.flatMap_cons,
    entries_of_inert s (by rw [hs.kind.1]; decide), entries_of_inert s' (by rw [hs.kind.2]; decide),
    hroot, hroot', Node.preorderAll_eq, Node.preorderAll_eq]
  simp only [List.flatMap_append, List.flatMap_cons, List.nil_append, hnothing]
  exact List.rel_append (hrelated hbefore) (hrelated hafter)

/-- A listing of files, with the file in it as it stands and with the import. -/
theorem ofScripts_alike {s s' : Script} (ha : a.Proper) (hs : s.Respelled a s') (policy : Policy)
    (maxDepth : Int) (us vs : List Script) :
    (ofScripts policy maxDepth (us ++ s :: vs)).Alike a
      (ofScripts policy maxDepth (us ++ s' :: vs)) := by
  rw [ofScripts, ofScripts, List.foldl_append, List.foldl_append, List.foldl_cons, List.foldl_cons]
  have hstart :=
    (Alike.refl (a := a) (us.foldl addScript (empty policy maxDepth))).addRespelled ha hs
  revert hstart
  generalize (us.foldl addScript (empty policy maxDepth)).addScript s = g
  generalize (us.foldl addScript (empty policy maxDepth)).addScript s' = g'
  intro hstart
  induction vs generalizing g g' with
  | nil => exact hstart
  | cons v vs ih => exact ih _ _ (hstart.addScript v)

section Searches

variable (h : g.Alike a g')

include h

theorem Alike.resolveFunction (candidates : List String) :
    g.resolveFunction candidates = g'.resolveFunction candidates := by
  have hhas : g.functions.has = g'.functions.has := funext h.functions.has
  rw [CallGraph.resolveFunction, CallGraph.resolveFunction, hhas]

theorem Alike.own? (method key : String) :
    Option.Rel (Definition.Alike a) (g.own? method key) (g'.own? method key) := by
  have htable : Table.Rel (Definition.Alike a) ((g.methods.find? key).getD [])
      ((g'.methods.find? key).getD []) :=
    rel_getD (h.methods.find? key) .nil
  exact htable.find? method

theorem Alike.searchMethod (method : String) (fuel : Nat) (seen pending : List String) :
    Option.Rel (Definition.Alike a) (g.searchMethod method seen fuel pending)
      (g'.searchMethod method seen fuel pending) := by
  have hlinks : g.links = g'.links := by
    funext key
    rw [links, links, traitsOf, traitsOf, h.traits, h.parents]
  induction fuel generalizing seen pending with
  | zero => exact .none
  | succ fuel ih =>
    cases pending with
    | nil => exact .none
    | cons key pending =>
      rw [searchMethod_cons, searchMethod_cons, ← hlinks]
      split
      case isTrue => exact ih seen pending
      case isFalse =>
        obtain ⟨hd, hd'⟩ | ⟨d, d', hd, hd', halike⟩ := rel_cases (h.own? method key)
        · rw [hd, hd']
          exact ih (key :: seen) (pending ++ g.links key)
        · rw [hd, hd']
          exact .some halike

theorem Alike.definition? (t : Target) :
    Option.Rel (Definition.Alike a) (g.definition? t) (g'.definition? t) := by
  cases t with
  | function name => exact h.functions.find? _
  | method className name =>
    have hbound : g.searchBound = g'.searchBound := by
      rw [searchBound, searchBound, h.traits, h.parents]
    rw [CallGraph.definition?, CallGraph.definition?, findMethod, findMethod, ← hbound]
    exact h.searchMethod _ _ _ _

theorem Alike.scopeClass {scope scope' : Option Node}
    (hnames : names.KnowAs a names') (hscope : Option.Rel (Node.Respells a) scope scope')
    (currentClass : String) :
    g.scopeClass scope currentClass names = g'.scopeClass scope' currentClass names' := by
  cases hscope with
  | none => rfl
  | @some n n' hn =>
    have hword := hn.sameWord.strip.lower
    rw [CallGraph.scopeClass, CallGraph.scopeClass]
    simp only [hword.beq (show '(' ∉ "self".toList by decide),
      hword.beq (show '(' ∉ "static".toList by decide),
      hword.beq (show '(' ∉ "parent".toList by decide), h.parents, ← Node.Alike.isName (.inl hn)]
    split
    case isTrue => rfl
    case isFalse =>
      split
      case isTrue => rfl
      case isFalse =>
        split
        case isTrue hname => rw [hnames.resolves hn hname]
        case isFalse => rfl

section Outcomes

variable {d d' : Definition} {e e' : Node}

theorem Alike.outcome_creation (hd : d.Respelled a d') (he : Node.Alike a e e')
    (hk : e.unwrap.kind = .objectCreationExpression) : g.outcome d e = g'.outcome d' e' := by
  have hk' : e'.unwrap.kind = .objectCreationExpression := he.unwrap.kind.symm.trans hk
  have hl := unwrap_literal?_of_kind hk rfl
  have hl' := unwrap_literal?_of_kind hk' rfl
  obtain ⟨hc, hc'⟩ | ⟨cls, cls', hc, hc', hcls⟩ := rel_cases (he.unwrap.createdClass? hk)
  · simp only [outcome, hl, hl', hk, hk', hc, hc']
  · simp only [outcome, hl, hl', hk, hk', hc, hc', ← Node.Alike.isName (.inl hcls), ← h.policy]
    by_cases hname : cls.isName = true
    · rw [hd.names.resolves hcls hname]
    · rw [Bool.eq_false_iff.2 hname, Bool.false_and, Bool.false_and]

theorem Alike.outcome_call (ha : a.Proper) (hd : d.Respelled a d') (he : Node.Alike a e e')
    (hk : e.unwrap.kind = .functionCallExpression) : g.outcome d e = g'.outcome d' e' := by
  have hk' : e'.unwrap.kind = .functionCallExpression := he.unwrap.kind.symm.trans hk
  have hl := unwrap_literal?_of_kind hk rfl
  have hl' := unwrap_literal?_of_kind hk' rfl
  obtain ⟨hf, hf'⟩ | ⟨fn, fn', hf, hf', hfn⟩ := rel_cases he.unwrap.callee?
  · simp only [outcome, hl, hl', hk, hk', hf, hf']
  · simp only [outcome, hl, hl', hk, hk', hf, hf', ← hfn.isName, ← h.policy]
    by_cases hname : fn.isName = true
    · have hfresh := he.unwrap.fresh hk hf hname
      rw [hd.names.globalFunction ha hfn hname hfresh, hd.names.candidates ha hfn hname hfresh,
        h.resolveFunction]
    · rw [if_pos (by simp [hname]), if_pos (by simp [hname])]

omit h in
theorem method_alike {m m' : Node} (hm : Node.Respells a m m') {known : Bool} {cls : String} :
    (if m.kind == .name && known then Outcome.follow (.method cls m.text) else .harmless) =
      if m'.kind == .name && known then Outcome.follow (.method cls m'.text) else .harmless := by
  rw [← hm.kind]
  split
  case isTrue hcalled =>
    rw [Bool.and_eq_true, beq_iff_eq] at hcalled
    rw [hm.text_of_isName (by rw [Node.isName, hcalled.1]; rfl)]
  case isFalse => rfl

omit h in
theorem outcome_member (hd : d.Respelled a d') (he : Node.Alike a e e')
    (hk : e.unwrap.kind = .memberCallExpression) : g.outcome d e = g'.outcome d' e' := by
  have hk' : e'.unwrap.kind = .memberCallExpression := he.unwrap.kind.symm.trans hk
  have hl := unwrap_literal?_of_kind hk rfl
  have hl' := unwrap_literal?_of_kind hk' rfl
  have hobject : (e.unwrap.child? .object).bind Node.plainVariable? =
      (e'.unwrap.child? .object).bind Node.plainVariable? :=
    bind_eq_of_rel (he.unwrap.child? .object) fun _ _ hn => Node.Alike.plainVariable? hn
  simp only [outcome, hl, hl', hk, hk', ← hobject, ← hd.className]
  by_cases hthis : (e.unwrap.child? .object).bind Node.plainVariable? = some "this"
  · obtain ⟨hm, hm'⟩ | ⟨m, m', hm, hm', hmethod⟩ :=
      rel_cases (he.unwrap.child?_of_ne (r := .name) (by decide))
    · rw [hthis, hm, hm']
    · rw [hthis, hm, hm']
      exact method_alike hmethod
  · split
    case h_1 hself _ => exact absurd hself hthis
    case h_2 =>
      split
      case h_1 hself _ => exact absurd hself hthis
      case h_2 => rfl

theorem Alike.outcome_scoped (hd : d.Respelled a d') (he : Node.Alike a e e')
    (hk : e.unwrap.kind = .scopedCallExpression) : g.outcome d e = g'.outcome d' e' := by
  have hk' : e'.unwrap.kind = .scopedCallExpression := he.unwrap.kind.symm.trans hk
  have hl := unwrap_literal?_of_kind hk rfl
  have hl' := unwrap_literal?_of_kind hk' rfl
  have hscope := h.scopeClass hd.names (he.unwrap.child?_of_ne (r := .scope) (by decide))
    d.className
  obtain ⟨hm, hm'⟩ | ⟨m, m', hm, hm', hmethod⟩ :=
    rel_cases (he.unwrap.child?_of_ne (r := .name) (by decide))
  · simp only [outcome, hl, hl', hk, hk', hm, hm']
  · simp only [outcome, hl, hl', hk, hk', hm, hm', ← hd.className, ← hscope,
      Bool.and_comm (_ != _)]
    exact method_alike hmethod

/-- What a definition of both files returns amounts to the same. -/
theorem Alike.outcome_respelled (ha : a.Proper) (hd : d.Respelled a d')
    (he : Node.Alike a e e') : g.outcome d e = g'.outcome d' e' := by
  by_cases hcreation : e.unwrap.kind = .objectCreationExpression
  · exact h.outcome_creation hd he hcreation
  by_cases hcall : e.unwrap.kind = .functionCallExpression
  · exact h.outcome_call ha hd he hcall
  by_cases hmember : e.unwrap.kind = .memberCallExpression
  · exact outcome_member hd he hmember
  by_cases hscoped : e.unwrap.kind = .scopedCallExpression
  · exact h.outcome_scoped hd he hscoped
  rw [outcome, outcome]
  dsimp only
  rw [← he.unwrap.literal?, ← he.unwrap.kind, ← h.policy]
  split
  case h_1 => rfl
  case h_2 =>
    split
    case h_1 hk => exact absurd hk hcreation
    case h_2 hk => exact absurd hk hcall
    case h_3 hk => exact absurd hk hmember
    case h_4 hk => exact absurd hk hscoped
    case h_5 => rfl

/-- What a definition outside of the file returns amounts to the same in both graphs. -/
theorem Alike.outcome_same (d : Definition) (e : Node) : g.outcome d e = g'.outcome d e := by
  have hscope : g.scopeClass = g'.scopeClass := by
    funext scope currentClass names
    rw [CallGraph.scopeClass.eq_def, CallGraph.scopeClass.eq_def, h.parents]
  simp only [outcome, h.policy, h.resolveFunction, hscope]

end Outcomes

/-- The same targets lead to something forbidden, within the same number of steps. -/
theorem Alike.reaches (ha : a.Proper) (steps : Nat) (visited : List String) (t : Target) :
    g.reaches steps visited t = g'.reaches steps visited t := by
  induction steps generalizing visited t with
  | zero => rfl
  | succ steps ih =>
    rw [CallGraph.reaches, CallGraph.reaches]
    split
    case isTrue => rfl
    case isFalse =>
      obtain ⟨hd, hd'⟩ | ⟨d, d', hd, hd', halike⟩ := rel_cases (h.definition? t)
      · rw [hd, hd']
      · rw [hd, hd']
        dsimp only
        obtain rfl | hrespelled := halike
        · simp only [h.outcome_same, ih]
        · apply any_eq_of_forall₂ _ hrespelled.returns
          intro e e' he
          rw [h.outcome_respelled ha hrespelled he]
          split <;> first | rfl | exact ih _ _

theorem Alike.chainsToForbidden (ha : a.Proper) (t : Target) :
    g.chainsToForbidden t = g'.chainsToForbidden t := by
  rw [CallGraph.chainsToForbidden, CallGraph.chainsToForbidden, h.maxDepth]
  exact h.reaches ha _ [] t

end Searches

end CallGraph

end Php

end PluginAudit
