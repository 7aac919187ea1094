import PluginAudit.Proofs.AliasedNames

namespace PluginAudit.Php

namespace Node

/-- The nodes cover ranges of bytes that follow one another between two offsets. -/
def InSequence (start stop : Nat) : List Node → Prop
  | [] => start ≤ stop
  | c :: cs => start ≤ c.start ∧ c.start ≤ c.stop ∧ InSequence c.stop stop cs

/-- A namespace definition with its code in braces. -/
def IsBraced (n body : Node) : Prop :=
  n.kind = .namespaceDefinition ∧ n.child? .body = some body

/-- A namespace definition for the code that follows it. -/
def IsUnbraced (n : Node) : Prop :=
  n.kind = .namespaceDefinition ∧ n.child? .body = none

def namespaceName (n : Node) : String :=
  Text.trimBackslashes (((n.child? .name).map text).getD "")

/-- The nodes in front of the first namespace definition. -/
def standing (cs : List Node) : List Node :=
  cs.takeWhile fun c => c.kind != .namespaceDefinition

/-- The namespace in force at an offset, and the nodes that stand directly in its stretch. -/
inductive InForce (cs : List Node) (o : Nat) : String → List Node → Prop where
  | inside {b body : Node} (hmem : b ∈ cs) (hb : b.IsBraced body) (hstart : b.start ≤ o)
      (hstop : o < b.stop) : InForce cs o b.namespaceName body.namedChildren
  | opened {before after : List Node} {d : Node} (hcs : cs = before ++ d :: after)
      (hd : d.IsUnbraced) (hstart : d.start ≤ o)
      (hlast : ∀ n ∈ after, n.IsUnbraced → o < n.start)
      (hending : ∀ n ∈ after, ∀ body, n.IsBraced body → o < n.stop)
      (houtside : ∀ n ∈ cs, ∀ body, n.IsBraced body → ¬(n.start ≤ o ∧ o < n.stop)) :
      InForce cs o d.namespaceName (standing after)
  | closed {before after : List Node} {b body : Node} (hcs : cs = before ++ b :: after)
      (hb : b.IsBraced body) (hstop : b.stop ≤ o)
      (hlast : ∀ n ∈ after, n.kind = .namespaceDefinition → o < n.start) :
      InForce cs o "" (standing after)
  | first (hnone : ∀ n ∈ cs, n.kind = .namespaceDefinition → o < n.start) :
      InForce cs o "" (standing cs)

section InSequence

variable {start stop o : Nat} {cs : List Node}

theorem InSequence.mono {start' : Nat} (hle : start' ≤ start) (h : InSequence start stop cs) :
    InSequence start' stop cs := by
  cases cs with
  | nil => exact hle.trans h
  | cons c cs => exact ⟨hle.trans h.1, h.2⟩

theorem InSequence.filter (h : InSequence start stop cs) (p : Node → Bool) :
    InSequence start stop (cs.filter p) := by
  induction cs generalizing start with
  | nil => exact h
  | cons c cs ih =>
    obtain ⟨hstart, hforward, hrest⟩ := h
    rw [List.filter_cons]
    split
    · exact ⟨hstart, hforward, ih hrest⟩
    · exact ih (hrest.mono (hstart.trans hforward))

theorem InSequence.mem (h : InSequence start stop cs) {c : Node} (hc : c ∈ cs) :
    start ≤ c.start ∧ c.start ≤ c.stop := by
  induction cs generalizing start with
  | nil => cases hc
  | cons d cs ih =>
    obtain ⟨hstart, hforward, hrest⟩ := h
    cases hc with
    | head => exact ⟨hstart, hforward⟩
    | tail _ hc =>
      obtain ⟨hle, hc⟩ := ih hrest hc
      exact ⟨(hstart.trans hforward).trans hle, hc⟩

theorem InSequence.of_append {before : List Node} {c : Node}
    (h : InSequence start stop (before ++ c :: cs)) :
    InSequence c.stop stop cs ∧ ∀ b ∈ before, b.stop ≤ c.start := by
  induction before generalizing start with
  | nil => exact ⟨h.2.2, List.forall_mem_nil _⟩
  | cons b before ih =>
    obtain ⟨hrest, hbefore⟩ := ih h.2.2
    refine ⟨hrest, List.forall_mem_cons.2 ⟨?_, hbefore⟩⟩
    exact (h.2.2.mem (List.mem_append_right _ List.mem_cons_self)).1

end InSequence

theorem IsBraced.not_isUnbraced {n body : Node} (h : n.IsBraced body) : ¬ n.IsUnbraced := by
  intro hn
  have hbody := h.2
  rw [hn.2] at hbody
  cases hbody

theorem braced_or_unbraced {n : Node} (h : n.kind = .namespaceDefinition) :
    (∃ body, n.IsBraced body) ∨ n.IsUnbraced := by
  cases hbody : n.child? .body with
  | none => exact .inr ⟨h, hbody⟩
  | some body => exact .inl ⟨body, h, hbody⟩

/-- The last namespace definition that starts at or before an offset, with the nodes after it. -/
structure LastOpened (cs : List Node) (o : Nat) (n : Node) (after : List Node) : Prop where
  split : ∃ before, cs = before ++ n :: after
  kind : n.kind = .namespaceDefinition
  start : n.start ≤ o
  last : ∀ m ∈ after, m.kind = .namespaceDefinition → o < m.start

namespace LastOpened

variable {cs after after' : List Node} {o : Nat} {n n' : Node}

theorem cons (h : LastOpened cs o n after) (c : Node) : LastOpened (c :: cs) o n after := by
  obtain ⟨before, hcs⟩ := h.split
  exact ⟨⟨c :: before, by rw [hcs, List.cons_append]⟩, h.kind, h.start, h.last⟩

theorem mem (h : LastOpened cs o n after) : n ∈ cs := by
  obtain ⟨before, rfl⟩ := h.split
  exact List.mem_append_right _ List.mem_cons_self

theorem unique (h : LastOpened cs o n after) (h' : LastOpened cs o n' after') :
    n = n' ∧ after = after' := by
  obtain ⟨before, hcs⟩ := h.split
  obtain ⟨before', hcs'⟩ := h'.split
  rw [hcs, List.append_eq_append_iff] at hcs'
  obtain ⟨between, -, hrest⟩ | ⟨between, -, hrest⟩ := hcs'
  · cases between with
    | nil =>
      cases hrest
      exact ⟨rfl, rfl⟩
    | cons m between =>
      cases hrest
      have hlater := h.last n' (List.mem_append_right _ List.mem_cons_self) h'.kind
      exact absurd h'.start (Nat.not_le.2 hlater)
  · cases between with
    | nil =>
      cases hrest
      exact ⟨rfl, rfl⟩
    | cons m between =>
      cases hrest
      have hlater := h'.last n (List.mem_append_right _ List.mem_cons_self) h.kind
      exact absurd h.start (Nat.not_le.2 hlater)

end LastOpened

section InForce

variable {start stop o : Nat} {cs members : List Node} {ns : String}

/-- What the last definition that starts at or before an offset leaves in force there. -/
inductive Leaves (n : Node) (after : List Node) (o : Nat) : String → List Node → Prop where
  | inside {body : Node} (hn : n.IsBraced body) (ho : o < n.stop) :
      Leaves n after o n.namespaceName body.namedChildren
  | closed {body : Node} (hn : n.IsBraced body) (ho : n.stop ≤ o) : Leaves n after o "" (standing after)
  | opened (hn : n.IsUnbraced) : Leaves n after o n.namespaceName (standing after)

theorem Leaves.unique {n : Node} {after members' : List Node} {ns' : String}
    (h : Leaves n after o ns members) (h' : Leaves n after o ns' members') :
    ns = ns' ∧ members = members' := by
  cases h with
  | inside hn ho =>
    cases h' with
    | inside hn' _ =>
      obtain rfl := Option.some.inj (hn.2.symm.trans hn'.2)
      exact ⟨rfl, rfl⟩
    | closed _ ho' => exact absurd ho (Nat.not_lt.2 ho')
    | opened hn' => exact absurd hn' hn.not_isUnbraced
  | closed hn ho =>
    cases h' with
    | inside _ ho' => exact absurd ho' (Nat.not_lt.2 ho)
    | closed => exact ⟨rfl, rfl⟩
    | opened hn' => exact absurd hn' hn.not_isUnbraced
  | opened hn =>
    cases h' with
    | inside hn' _ => exact absurd hn hn'.not_isUnbraced
    | closed hn' _ => exact absurd hn hn'.not_isUnbraced
    | opened => exact ⟨rfl, rfl⟩

theorem InForce.first_or_lastOpened (hseq : InSequence start stop cs) (h : InForce cs o ns members) :
    ((∀ n ∈ cs, n.kind = .namespaceDefinition → o < n.start) ∧ ns = "" ∧ members = standing cs) ∨
      ∃ n after, LastOpened cs o n after ∧ Leaves n after o ns members := by
  cases h with
  | first hnone => exact .inl ⟨hnone, rfl, rfl⟩
  | @inside b body hmem hb hstart hstop =>
    obtain ⟨before, after, hcs⟩ := List.append_of_mem hmem
    refine .inr ⟨b, after, ⟨⟨before, hcs⟩, hb.1, hstart, ?_⟩, .inside hb hstop⟩
    intro m hm _
    rw [hcs] at hseq
    exact hstop.trans_le (hseq.of_append.1.mem hm).1
  | @opened before after d hcs hd hstart hlast hending houtside =>
    refine .inr ⟨d, after, ⟨⟨before, hcs⟩, hd.1, hstart, ?_⟩, .opened hd⟩
    intro m hm hkind
    obtain ⟨body, hbody⟩ | hopens := braced_or_unbraced hkind
    · have hmem : m ∈ cs := by
        rw [hcs]
        exact List.mem_append_right _ (List.mem_cons_of_mem _ hm)
      by_contra hle
      exact houtside m hmem body hbody ⟨Nat.not_lt.1 hle, hending m hm body hbody⟩
    · exact hlast m hm hopens
  | @closed before after b body hcs hb hstop hlast =>
    refine .inr ⟨b, after, ⟨⟨before, hcs⟩, hb.1, ?_, hlast⟩, .closed hb hstop⟩
    have hmem : b ∈ cs := by
      rw [hcs]
      exact List.mem_append_right _ List.mem_cons_self
    exact (hseq.mem hmem).2.trans hstop

theorem LastOpened.inForce {n : Node} {after : List Node} (hlast : LastOpened cs o n after)
    (hseq : InSequence start stop cs) (hleaves : Leaves n after o ns members) :
    InForce cs o ns members := by
  obtain ⟨before, hcs⟩ := hlast.split
  cases hleaves with
  | inside hn ho => exact .inside hlast.mem hn hlast.start ho
  | closed hn ho => exact .closed hcs hn ho hlast.last
  | opened hn =>
    rw [hcs] at hseq
    refine .opened hcs hn hlast.start (fun m hm hopens => hlast.last m hm hopens.1) ?_ ?_
    · intro m hm body hbody
      exact (hlast.last m hm hbody.1).trans_le (hseq.of_append.1.mem hm).2
    · rintro m hm body hbody ⟨hstart, hstop⟩
      rw [hcs, List.mem_append, List.mem_cons] at hm
      obtain hm | rfl | hm := hm
      · have hbefore := hseq.of_append.2 m hm
        have hopened := hlast.start
        omega
      · exact hbody.not_isUnbraced hn
      · have hlater := hlast.last m hm hbody.1
        omega

theorem InForce.unique (hseq : InSequence start stop cs) {ns' : String} {members' : List Node}
    (h : InForce cs o ns members) (h' : InForce cs o ns' members') :
    ns = ns' ∧ members = members' := by
  obtain ⟨hnone, rfl, rfl⟩ | ⟨n, after, hlast, hleaves⟩ := h.first_or_lastOpened hseq
  · obtain ⟨-, rfl, rfl⟩ | ⟨n, after, hlast, -⟩ := h'.first_or_lastOpened hseq
    · exact ⟨rfl, rfl⟩
    · exact absurd hlast.start (Nat.not_le.2 (hnone n hlast.mem hlast.kind))
  · obtain ⟨hnone, -⟩ | ⟨n', after', hlast', hleaves'⟩ := h'.first_or_lastOpened hseq
    · exact absurd hlast.start (Nat.not_le.2 (hnone n hlast.mem hlast.kind))
    · obtain ⟨rfl, rfl⟩ := hlast.unique hlast'
      exact hleaves.unique hleaves'

end InForce

end Node

namespace Region

/-- The regions cover a range of bytes without gaps, each beginning where the one before it ends. -/
def Tile (start stop : Nat) : List Region → Prop
  | [] => start = stop
  | r :: rs => r.start = start ∧ r.start ≤ r.stop ∧ Tile r.stop stop rs

/-- The region has a namespace, and knows the last of the given imports by each name. -/
structure Has (r : Region) (ns : String) (imports : List Import) : Prop where
  ns : r.ns = ns
  known : ∀ kind ≠ ImportKind.const, ∀ key,
    (r.known kind).find? key = Import.lastKnown? kind key imports

section Tile

variable {start stop o : Nat} {rs : List Region}

theorem Tile.le_start (h : Tile start stop rs) {r : Region} (hr : r ∈ rs) : start ≤ r.start := by
  induction rs generalizing start with
  | nil => cases hr
  | cons r' rs ih =>
    obtain ⟨rfl, hforward, hrest⟩ := h
    cases hr with
    | head => exact Nat.le_refl _
    | tail _ hr => exact hforward.trans (ih hrest hr)

/-- One region of a tiling holds an offset, and it is the last one that starts at or before it. -/
theorem Tile.exists_holding (h : Tile start stop rs) (hstart : start ≤ o) (hstop : o < stop) :
    ∃ i r, rs[i]? = some r ∧ r.start ≤ o ∧ o < r.stop ∧
      i + 1 = rs.countP (fun r => decide (r.start ≤ o)) ∧
      ∀ j r', rs[j]? = some r' → r'.start ≤ o → o < r'.stop → j = i := by
  induction rs generalizing start with
  | nil =>
    obtain rfl : start = stop := h
    omega
  | cons r rs ih =>
    obtain ⟨rfl, hforward, hrest⟩ := h
    rw [List.countP_cons_of_pos (by simpa using hstart)]
    by_cases ho : o < r.stop
    · have hlater : ∀ r' ∈ rs, o < r'.start := fun r' hr' => ho.trans_le (hrest.le_start hr')
      have hcount : rs.countP (fun r => decide (r.start ≤ o)) = 0 := by
        rw [List.countP_eq_zero]
        intro r' hr'
        simpa using hlater r' hr'
      refine ⟨0, r, rfl, hstart, ho, by rw [hcount], ?_⟩
      intro j r' hj hstart' _
      cases j with
      | zero => rfl
      | succ j =>
        have hmem : r' ∈ rs := List.mem_of_getElem? hj
        exact absurd hstart' (Nat.not_le.2 (hlater r' hmem))
    · obtain ⟨i, r', hi, hstart', hstop', hcount, hunique⟩ := ih hrest (Nat.not_lt.1 ho)
      refine ⟨i + 1, r', hi, hstart', hstop', by rw [hcount], ?_⟩
      intro j r'' hj hstart'' hstop''
      cases j with
      | zero =>
        cases hj
        exact absurd hstop'' ho
      | succ j => rw [hunique j r'' hj hstart'' hstop'']

end Tile

section Has

variable {r : Region} {ns : String} {imports : List Import}

theorem addImports_eq (r : Region) (decl : Node) :
    r.addImports decl = (Import.ofClause decl.text).foldl add r :=
  rfl

theorem range_foldl_add (imports : List Import) (r : Region) :
    (imports.foldl add r).start = r.start ∧ (imports.foldl add r).stop = r.stop := by
  induction imports generalizing r with
  | nil => exact ⟨rfl, rfl⟩
  | cons i imports ih =>
    have hadd : (r.add i).start = r.start ∧ (r.add i).stop = r.stop := by
      rw [add]
      split <;> exact ⟨rfl, rfl⟩
    obtain ⟨hstart, hstop⟩ := ih (r.add i)
    exact ⟨hstart.trans hadd.1, hstop.trans hadd.2⟩

theorem range_addDeclarations (decls : List Node) (r : Region) :
    (decls.foldl addImports r).start = r.start ∧ (decls.foldl addImports r).stop = r.stop := by
  induction decls generalizing r with
  | nil => exact ⟨rfl, rfl⟩
  | cons decl decls ih =>
    obtain ⟨hstart, hstop⟩ := ih (r.addImports decl)
    rw [List.foldl_cons, hstart, hstop, addImports_eq]
    exact range_foldl_add (Import.ofClause decl.text) r

theorem has_empty (start stop : Nat) (ns : String) : Has (.empty start stop ns) ns [] := by
  refine ⟨rfl, ?_⟩
  intro kind hkind key
  cases kind with
  | const => exact absurd rfl hkind
  | className | function => rfl

theorem Has.foldl_add (h : Has r ns imports) (more : List Import) :
    Has (more.foldl add r) ns (imports ++ more) := by
  refine ⟨(ns_foldl_add more r).trans h.ns, ?_⟩
  intro kind hkind key
  rw [find?_known_foldl more r hkind, h.known kind hkind, Import.lastKnown?, Import.lastKnown?,
    Import.lastKnown?, List.filter_append, List.getLast?_append, Option.map_or]

theorem Has.addDeclarations (h : Has r ns imports) (members : List Node) :
    Has ((members.filter fun c => c.kind == .namespaceUseDeclaration).foldl Region.addImports r) ns
      (imports ++ importsAmong members) := by
  rw [importsAmong]
  induction members.filter fun c => c.kind == .namespaceUseDeclaration generalizing r imports with
  | nil => simpa using h
  | cons decl decls ih =>
    have hdecl := h.foldl_add (Import.ofClause decl.text)
    rw [← addImports_eq] at hdecl
    rw [List.foldl_cons, List.flatMap_cons, ← List.append_assoc]
    exact ih hdecl

end Has

end Region

namespace Names

open Node

/-- The regions that come of a list of children, the first of which is already open. -/
def regionsFrom (stop : Nat) (current : Region) : List Node → List Region
  | [] => [current]
  | c :: cs =>
    (addChild stop [] current c).1 ++ regionsFrom stop (addChild stop [] current c).2 cs

section Regions

variable {start stop o : Nat} {current r : Region} {c : Node} {cs : List Node}

theorem addChild_done (done : List Region) :
    addChild stop done current c =
      (done ++ (addChild stop [] current c).1, (addChild stop [] current c).2) := by
  rw [addChild, addChild]
  split
  · dsimp only
    split <;> rfl
  · rw [List.append_nil]
  · rw [List.append_nil]

theorem regions_ofTree (root : Node) : (ofTree root).regions =
    regionsFrom root.stop (.empty 0 root.stop "") root.namedChildren := by
  have hfold : ∀ (cs : List Node) (done : List Region) (current : Region),
      (cs.foldl (fun s child => addChild root.stop s.1 s.2 child) (done, current)).1 ++
        [(cs.foldl (fun s child => addChild root.stop s.1 s.2 child) (done, current)).2] =
      done ++ regionsFrom root.stop current cs := by
    intro cs
    induction cs with
    | nil => exact fun _ _ => rfl
    | cons c cs ih =>
      intro done current
      rw [List.foldl_cons, addChild_done, ih, List.append_assoc]
      rfl
  exact hfold root.namedChildren [] (.empty 0 root.stop "")

theorem addChild_cases (stop : Nat) (current : Region) (c : Node) :
    (∃ body region, c.IsBraced body ∧ region.start = c.start ∧ region.stop = c.stop ∧
      region.Has c.namespaceName (importsAmong body.namedChildren) ∧
      addChild stop [] current c =
        ([{ current with stop := c.start }, region], .empty c.stop stop "")) ∨
    (c.IsUnbraced ∧ addChild stop [] current c =
      ([{ current with stop := c.start }], .empty c.start stop c.namespaceName)) ∨
    (c.kind ≠ .namespaceDefinition ∧ addChild stop [] current c =
      ([], (importsAmong [c]).foldl Region.add current)) := by
  by_cases hkind : c.kind = .namespaceDefinition
  · cases hbody : c.child? .body with
    | none =>
      refine .inr (.inl ⟨⟨hkind, hbody⟩, ?_⟩)
      rw [addChild, hkind]
      dsimp only
      rw [hbody]
      rfl
    | some body =>
      have hregion := (Region.has_empty c.start c.stop c.namespaceName).addDeclarations
        body.namedChildren
      obtain ⟨hstart, hstop⟩ := Region.range_addDeclarations
        (body.namedChildren.filter fun c => c.kind == .namespaceUseDeclaration)
        (.empty c.start c.stop c.namespaceName)
      refine .inl ⟨body, _, ⟨hkind, hbody⟩, hstart, hstop, hregion, ?_⟩
      rw [addChild, hkind]
      dsimp only
      rw [hbody]
      rfl
  · refine .inr (.inr ⟨hkind, ?_⟩)
    rw [addChild, importsAmong_cons]
    split
    next hdefinition => exact absurd hdefinition hkind
    next huse =>
      rw [huse]
      simp [importsAmong, Region.addImports]
      rfl
    next hother =>
      rw [if_neg (by simpa using hother)]
      rfl

/-- The regions tile the range from the start of the open one to the end of the file. -/
theorem tile_regionsFrom (hseq : InSequence start stop cs) (hstart : current.start = start)
    (hstop : current.stop = stop) : Region.Tile start stop (regionsFrom stop current cs) := by
  induction cs generalizing current start with
  | nil =>
    refine ⟨hstart, ?_, hstop⟩
    rw [hstart, hstop]
    exact hseq
  | cons c cs ih =>
    obtain ⟨hfirst, hforward, hrest⟩ := hseq
    rw [regionsFrom]
    obtain ⟨body, region, -, hfrom, hto, -, hadd⟩ | ⟨-, hadd⟩ | ⟨-, hadd⟩ :=
      addChild_cases stop current c
    · rw [hadd]
      refine ⟨hstart, hstart.trans_le hfirst, hfrom, ?_, ?_⟩
      · rw [hfrom, hto]
        exact hforward
      · rw [hto]
        exact ih hrest rfl rfl
    · rw [hadd]
      exact ⟨hstart, hstart.trans_le hfirst, ih (hrest.mono hforward) rfl rfl⟩
    · obtain ⟨hfrom, hto⟩ := Region.range_foldl_add (importsAmong [c]) current
      rw [hadd, List.nil_append]
      exact ih (hrest.mono (hfirst.trans hforward)) (hfrom.trans hstart) (hto.trans hstop)

theorem le_start_of_mem_regionsFrom (hseq : InSequence start stop cs) (hstart : current.start = start)
    (hstop : current.stop = stop) (hr : r ∈ regionsFrom stop current cs) : start ≤ r.start :=
  (tile_regionsFrom hseq hstart hstop).le_start hr

/-- A region has what is in force at an offset among some nodes, where a namespace and imports are
open in front of them. -/
inductive Serves (cs : List Node) (o : Nat) (ns : String) (imports : List Import) (r : Region) : Prop where
  | front (hnone : ∀ n ∈ cs, n.kind = .namespaceDefinition → o < n.start)
      (hhas : r.Has ns (imports ++ importsAmong (standing cs)))
  | behind {n : Node} {after members : List Node} {ns' : String} (hlast : LastOpened cs o n after)
      (hleaves : Leaves n after o ns' members) (hhas : r.Has ns' (importsAmong members))

section Serves

variable {ns : String} {imports : List Import}

/-- The open region ends at a definition. -/
theorem serves_closed (hkind : c.kind = .namespaceDefinition) (hforward : c.start ≤ c.stop)
    (hrest : InSequence c.stop stop cs) (ho : o < c.start) (h : r.Has ns imports) :
    Serves (c :: cs) o ns imports { r with stop := c.start } := by
  apply Serves.front
  · intro n hn _
    cases hn with
    | head => exact ho
    | tail _ hn => exact (ho.trans_le hforward).trans_le (hrest.mem hn).1
  · rw [standing, List.takeWhile_cons_of_neg (by simp [hkind]), importsAmong, List.filter_nil,
      List.flatMap_nil, List.append_nil]
    exact ⟨h.ns, h.known⟩

/-- A definition opens what the nodes behind it begin with. -/
theorem Serves.cons_definition {ns' : String} (h : Serves cs o ns [] r)
    (hkind : c.kind = .namespaceDefinition) (ho : c.start ≤ o)
    (hleaves : Leaves c cs o ns (standing cs)) : Serves (c :: cs) o ns' imports r := by
  cases h with
  | front hnone hhas =>
    rw [List.nil_append] at hhas
    exact .behind ⟨⟨[], rfl⟩, hkind, ho, hnone⟩ hleaves hhas
  | behind hlast hleaves hhas => exact .behind (hlast.cons c) hleaves hhas

theorem Serves.cons_other (h : Serves cs o ns (imports ++ importsAmong [c]) r)
    (hkind : c.kind ≠ .namespaceDefinition) : Serves (c :: cs) o ns imports r := by
  cases h with
  | front hnone hhas =>
    refine .front (List.forall_mem_cons.2 ⟨fun h => absurd h hkind, hnone⟩) ?_
    rwa [standing, List.takeWhile_cons_of_pos (by simpa using hkind), ← List.singleton_append,
      importsAmong_append, ← List.append_assoc]
  | behind hlast hleaves hhas => exact .behind (hlast.cons c) hleaves hhas

theorem serves_of_mem_regionsFrom (hcurrent : current.Has ns imports) (hseq : InSequence start stop cs)
    (hstart : current.start = start) (hstop : current.stop = stop) (hr : r ∈ regionsFrom stop current cs)
    (hfrom : r.start ≤ o) (hto : o < r.stop) : Serves cs o ns imports r := by
  induction cs generalizing current start ns imports with
  | nil =>
    obtain rfl := List.mem_singleton.1 hr
    refine .front (List.forall_mem_nil _) ?_
    rwa [standing, List.takeWhile_nil, importsAmong, List.filter_nil, List.flatMap_nil,
      List.append_nil]
  | cons c cs ih =>
    obtain ⟨hfirst, hforward, hrest⟩ := hseq
    rw [regionsFrom] at hr
    obtain ⟨body, region, hbraced, hregion, hregion', hhas, hadd⟩ | ⟨hopens, hadd⟩ | ⟨hkind, hadd⟩ :=
      addChild_cases stop current c
    · rw [hadd, List.mem_append, List.mem_pair] at hr
      obtain (rfl | rfl) | hr := hr
      · exact serves_closed hbraced.1 hforward hrest hto hcurrent
      · rw [hregion] at hfrom
        rw [hregion'] at hto
        refine .behind ⟨⟨[], rfl⟩, hbraced.1, hfrom, ?_⟩ (.inside hbraced hto) hhas
        intro m hm _
        exact hto.trans_le (hrest.mem hm).1
      · have hpast : c.stop ≤ o := (le_start_of_mem_regionsFrom hrest rfl rfl hr).trans hfrom
        have hlater := ih (Region.has_empty c.stop stop "") hrest rfl rfl hr
        exact hlater.cons_definition hbraced.1 (hforward.trans hpast) (.closed hbraced hpast)
    · rw [hadd, List.mem_append, List.mem_singleton] at hr
      obtain rfl | hr := hr
      · exact serves_closed hopens.1 hforward hrest hto hcurrent
      · have hrest' := hrest.mono hforward
        have hpast : c.start ≤ o := (le_start_of_mem_regionsFrom hrest' rfl rfl hr).trans hfrom
        have hlater := ih (Region.has_empty c.start stop c.namespaceName) hrest' rfl rfl hr
        exact hlater.cons_definition hopens.1 hpast (.opened hopens)
    · obtain ⟨hfrom', hto'⟩ := Region.range_foldl_add (importsAmong [c]) current
      rw [hadd, List.nil_append] at hr
      have hlater := ih (hcurrent.foldl_add (importsAmong [c])) (hrest.mono (hfirst.trans hforward))
        (hfrom'.trans hstart) (hto'.trans hstop) hr
      exact hlater.cons_other hkind

end Serves

end Regions

theorem regionAt_eq {names : Names} {o i : Nat} {r : Region} (hr : names.regions[i]? = some r)
    (hfrom : r.start ≤ o) (hto : o < r.stop)
    (hunique : ∀ j r', names.regions[j]? = some r' → r'.start ≤ o → o < r'.stop → j = i) :
    names.regionAt o = r := by
  rw [regionAt]
  split
  next found hfound =>
    have hmem := List.mem_of_find?_eq_some hfound
    rw [List.mem_reverse] at hmem
    obtain ⟨j, hj⟩ := List.mem_iff_getElem?.1 hmem
    have hholds := List.find?_some hfound
    rw [Bool.and_eq_true, decide_eq_true_eq, decide_eq_true_eq] at hholds
    rw [hunique j found hj hholds.1 hholds.2, hr] at hj
    exact (Option.some.inj hj).symm
  next hnone =>
    have hmem := List.mem_reverse.2 (List.mem_of_getElem? hr)
    have hmiss := List.find?_eq_none.1 hnone r hmem
    rw [Bool.and_eq_true, decide_eq_true_eq, decide_eq_true_eq] at hmiss
    exact absurd ⟨hfrom, hto⟩ hmiss

/-- The regions of a file tile it. The one that is found for an offset is the only one that holds it,
the last that starts at or before it; its namespace is the one in force there, and the names that it
knows are those that the imports directly in its stretch make known, the last one for each. -/
theorem regions_partition {root : Node} (hseq : InSequence 0 root.stop root.children) :
    let regions := (ofTree root).regions
    regions ≠ [] ∧ Region.Tile 0 root.stop regions ∧
    ∀ o < root.stop, ∃ i r, regions[i]? = some r ∧ (ofTree root).regionAt o = r ∧
      r.start ≤ o ∧ o < r.stop ∧ i + 1 = regions.countP (fun r => decide (r.start ≤ o)) ∧
      (∀ j r', regions[j]? = some r' → r'.start ≤ o → o < r'.stop → j = i) ∧
      ∃ members, (∀ ns members', InForce root.namedChildren o ns members' ↔
          ns = r.ns ∧ members' = members) ∧
        ∀ kind ≠ ImportKind.const, ∀ key,
          (r.known kind).find? key = Import.lastKnown? kind key (importsAmong members) := by
  intro regions
  have hchildren : InSequence 0 root.stop root.namedChildren := hseq.filter isNamed
  have hregions : regions = regionsFrom root.stop (.empty 0 root.stop "") root.namedChildren :=
    regions_ofTree root
  have htile : Region.Tile 0 root.stop regions := by
    rw [hregions]
    exact tile_regionsFrom hchildren rfl rfl
  refine ⟨?_, htile, ?_⟩
  · exact List.append_ne_nil_of_right_ne_nil _ (List.cons_ne_nil _ _)
  intro o ho
  obtain ⟨i, r, hi, hfrom, hto, hcount, hunique⟩ := htile.exists_holding (Nat.zero_le o) ho
  refine ⟨i, r, hi, regionAt_eq hi hfrom hto hunique, hfrom, hto, hcount, hunique, ?_⟩
  have hr : r ∈ regionsFrom root.stop (.empty 0 root.stop "") root.namedChildren := by
    rw [← hregions]
    exact List.mem_of_getElem? hi
  have hforce : ∃ ns members, InForce root.namedChildren o ns members ∧
      r.Has ns (importsAmong members) := by
    have hserves := serves_of_mem_regionsFrom (Region.has_empty 0 root.stop "") hchildren rfl rfl hr
      hfrom hto
    cases hserves with
    | front hnone hhas => exact ⟨_, _, .first hnone, hhas⟩
    | behind hlast hleaves hhas => exact ⟨_, _, hlast.inForce hchildren hleaves, hhas⟩
  obtain ⟨ns, members, hforce, hhas⟩ := hforce
  refine ⟨members, ?_, hhas.known⟩
  intro ns' members'
  constructor
  · intro h
    obtain ⟨rfl, rfl⟩ := h.unique hchildren hforce
    exact ⟨hhas.ns.symm, rfl⟩
  · rintro ⟨rfl, rfl⟩
    rw [hhas.ns]
    exact hforce

section Mixed

/-- The node of `namespace A;`. -/
def namespaceA : Node :=
  .mk .namespaceDefinition none 6 18 1 "namespace A;" [.mk .name (some .name) 16 17 1 "A" []]

def useB : Node :=
  .mk .namespaceUseDeclaration none 19 27 1 "use B\\C;" []

def useE : Node :=
  .mk .namespaceUseDeclaration none 42 50 1 "use E\\C;" []

def bodyD : Node :=
  .mk .compoundStatement (some .body) 40 52 1 "\x7b use E\\C; \x7d" [useE]

def namespaceD : Node :=
  .mk .namespaceDefinition none 28 52 1 "namespace D \x7b use E\\C; \x7d"
    [.mk .name (some .name) 38 39 1 "D" [], bodyD]

def callF : Node :=
  .mk .expressionStatement none 53 57 1 "f();" []

/-- The file `<?php namespace A; use B\C; namespace D { use E\C; } f();`. -/
def mixed : Node :=
  .mk .program none 0 57 1 "<?php namespace A; use B\\C; namespace D \x7b use E\\C; \x7d f();"
    [.mk .phpTag none 0 5 1 "<?php" [], namespaceA, useB, namespaceD, callF]

theorem namedChildren_mixed : mixed.namedChildren =
    [.mk .phpTag none 0 5 1 "<?php" [], namespaceA, useB, namespaceD, callF] :=
  rfl

theorem imports_bodyD : importsAmong bodyD.namedChildren = [⟨.className, "E\\C", "C"⟩] := by
  let d : UseDeclaration := { clauses := [{ name := ⟨false, ["E", "C"]⟩ }] }
  have hd : d.Proper ∧ d.Plain ∧ d.text = useE.text ∧ d.imports ++ d.leftover =
      [⟨.className, "E\\C", "C"⟩] := by
    decide +kernel
  obtain ⟨hproper, hplain, htext, himports⟩ := hd
  have hread := UseDeclaration.ofClause_text hproper hplain
  rw [htext, himports] at hread
  have hmembers : bodyD.namedChildren = [useE] := rfl
  rw [hmembers, importsAmong_cons, if_pos (by rfl), hread]
  rfl

theorem mixed_regions :
    InSequence 0 mixed.stop mixed.children ∧
    (ofTree mixed).namespaceAt 20 = "A" ∧ (ofTree mixed).namespaceAt 45 = "D" ∧
    (ofTree mixed).namespaceAt 53 = "" ∧
    ((ofTree mixed).regionAt 45).classes.find? "c" = some "E\\C" := by
  have hseq : InSequence 0 mixed.stop mixed.children := by
    simp [mixed, namespaceA, useB, namespaceD, callF, InSequence, children, start, stop]
  have hlower : Text.lower "C" = "c" := by cbv
  have hbraced : namespaceD.IsBraced bodyD := ⟨rfl, rfl⟩
  have hmem : namespaceD ∈ mixed.namedChildren := by simp [namedChildren_mixed]
  have hdefinitions : ∀ n ∈ mixed.namedChildren, n.kind = .namespaceDefinition →
      n = namespaceA ∨ n = namespaceD := by
    intro n hn hkind
    simp only [namedChildren_mixed, List.mem_cons, List.not_mem_nil, or_false] at hn
    obtain rfl | rfl | rfl | rfl | rfl := hn
    · cases hkind
    · exact .inl rfl
    · cases hkind
    · exact .inr rfl
    · cases hkind
  have hlater : ∀ n ∈ [useB, namespaceD, callF], n.kind = .namespaceDefinition →
      n = namespaceD := by
    intro n hn hkind
    refine (hdefinitions n (List.mem_of_mem_drop (i := 2) hn) hkind).resolve_left ?_
    rintro rfl
    simp [namespaceA, useB, namespaceD, callF] at hn
  -- What is in force after `namespace A;`, in the braces of `D` and after them.
  have hopened : InForce mixed.namedChildren 20 "A" (standing [useB, namespaceD, callF]) := by
    have hname : namespaceA.namespaceName = "A" := by decide
    rw [← hname]
    have hsplit : mixed.namedChildren =
        [.mk .phpTag none 0 5 1 "<?php" []] ++ namespaceA :: [useB, namespaceD, callF] := rfl
    apply InForce.opened hsplit ⟨rfl, rfl⟩ (by decide)
    · intro n hn hn'
      rw [hlater n hn hn'.1]
      decide
    · intro n hn body hbody
      rw [hlater n hn hbody.1]
      decide
    · intro n hn body hbody
      obtain rfl | rfl := hdefinitions n hn hbody.1 <;> decide
  have hinside : InForce mixed.namedChildren 45 "D" bodyD.namedChildren := by
    have hname : namespaceD.namespaceName = "D" := by decide
    rw [← hname]
    exact .inside hmem hbraced (by decide) (by decide)
  have hclosed : InForce mixed.namedChildren 53 "" (standing [callF]) := by
    have hsplit : mixed.namedChildren =
        [.mk .phpTag none 0 5 1 "<?php" [], namespaceA, useB] ++ namespaceD :: [callF] := rfl
    apply InForce.closed hsplit hbraced (by decide)
    intro n hn hkind
    rw [List.mem_singleton.1 hn] at hkind
    cases hkind
  obtain ⟨-, -, hholds⟩ := regions_partition hseq
  have hnamespace {o : Nat} {ns : String} {members : List Node} (ho : o < mixed.stop)
      (h : InForce mixed.namedChildren o ns members) : (ofTree mixed).namespaceAt o = ns := by
    obtain ⟨-, r, -, hat, -, -, -, -, members, hforce, -⟩ := hholds o ho
    rw [namespaceAt, hat]
    exact ((hforce _ _).1 h).1.symm
  refine ⟨hseq, hnamespace (by decide) hopened, hnamespace (by decide) hinside,
    hnamespace (by decide) hclosed, ?_⟩
  obtain ⟨-, r, -, hat, -, -, -, -, members, hforce, hknown⟩ := hholds 45 (by decide)
  have hclass := hknown .className (by decide) "c"
  rw [← ((hforce _ _).1 hinside).2, imports_bodyD, Import.lastKnown?] at hclass
  rw [hat]
  refine hclass.trans ?_
  simp [hlower]

end Mixed

end Names

end PluginAudit.Php
