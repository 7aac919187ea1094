import PluginAudit.Php.Script
import PluginAudit.Proofs.ImportClauses
import PluginAudit.Proofs.RespelledCalls
import PluginAudit.Proofs.StringBuilding

namespace PluginAudit.Php

namespace Alias

variable (a : Alias)

/-- No blank stands in the names, and none of them reads as a word of a declaration. -/
structure Proper : Prop where
  name : IsIdentifier a.name ∧ Unblanked a.name ∧ ∀ word ∈ useWords, ¬ FoldsTo a.name word
  knownAs : IsIdentifier a.knownAs ∧ Unblanked a.knownAs ∧
    ∀ word ∈ useWords, ¬ FoldsTo a.knownAs word

def text : String :=
  "use function " ++ a.name ++ " as " ++ a.knownAs ++ ";"

/-- The import of the function, as it stands in a declaration. -/
def clause : UseClause where
  name := ⟨false, [a.name]⟩
  knownAs := some ⟨[.blank ' '], "as", [.blank ' '], a.knownAs⟩

def declaration : UseDeclaration where
  kind := some ⟨.function, "function", [.blank ' ']⟩
  clauses := [a.clause]

variable {a}

theorem text_declaration : a.declaration.text = a.text := by
  have htext : a.text = "use function " ++ a.name ++ " as " ++ a.knownAs ++ ";" := rfl
  rw [htext, ← String.toList_inj]
  simp [UseDeclaration.text, declaration, clause, UseDeclaration.body, UseDeclaration.parts,
    UseClause.chars, UseClause.core, UseName.chars, UseAlias.chars, KindWord.chars, Gap.chars,
    Trivia.chars, Text.join]

theorem proper_blank : Gap.Proper [.blank ' '] ∧ ([.blank ' '] : Gap) ≠ [] := by
  decide

theorem blank_blank : Gap.Blank [.blank ' '] := by
  decide

theorem spells_self : Spells "use" "use" ∧ Spells "function" "function" ∧ Spells "as" "as" := by
  decide

theorem proper_clause (h : a.Proper) : a.clause.Proper where
  before := List.forall_mem_nil _
  kind := by rintro k ⟨⟩
  name :=
    { nonempty := List.cons_ne_nil _ _
      identifiers := List.forall_mem_singleton.2 h.name.1
      bare := fun _ => List.forall_mem_singleton.2 fun word hword hspells =>
        h.name.2.2 word hword hspells.foldsTo }
  knownAs := by
    rintro _ ⟨⟩
    exact ⟨proper_blank, spells_self.2.2, proper_blank, h.knownAs.1,
      fun word hword hspells => h.knownAs.2.2 word hword hspells.foldsTo⟩
  after := List.forall_mem_nil _

theorem plain_clause (h : a.Proper) : a.clause.Plain where
  before := List.forall_mem_nil _
  kind := by rintro k ⟨⟩
  segments := List.forall_mem_singleton.2 h.name.2.1
  last := by
    rintro - _ ⟨⟩ word hword
    have hmem : word ∈ useWords := by
      revert hword
      simp only [useWords, List.mem_cons, List.not_mem_nil, or_false]
      tauto
    exact h.name.2.2 word hmem
  knownAs := by
    rintro _ ⟨⟩
    exact ⟨blank_blank, blank_blank, h.knownAs.2.1⟩
  after := List.forall_mem_nil _

theorem proper_declaration (h : a.Proper) : a.declaration.Proper where
  word := spells_self.1
  gap := proper_blank
  kind := by
    rintro _ ⟨⟩
    exact ⟨by decide, spells_self.2.1, proper_blank⟩
  base := by rintro b ⟨⟩
  clauses := List.forall_mem_singleton.2 (proper_clause h)
  nonempty := List.cons_ne_nil _ _
  list := by
    refine fun _ => ⟨rfl, List.forall_mem_singleton.2 rfl, ?_, ?_⟩
    · rintro _ ⟨⟩
      rfl
    · rintro _ ⟨⟩
      rfl
  group := by rintro ⟨⟩
  common := fun _ => List.forall_mem_singleton.2 rfl
  trailing := by rintro g ⟨⟩
  closing := List.forall_mem_nil _

theorem plain_declaration (h : a.Proper) : a.declaration.Plain where
  gap := blank_blank
  kind := by
    rintro _ ⟨⟩
    exact blank_blank
  base := by rintro b ⟨⟩
  clauses := List.forall_mem_singleton.2 (plain_clause h)
  trailing := by rintro g ⟨⟩
  closing := List.forall_mem_nil _

/-- The declaration is read as the one import that it makes. -/
theorem ofClause_text (h : a.Proper) :
    Import.ofClause a.text = [⟨.function, a.name, a.knownAs⟩] := by
  rw [← text_declaration, UseDeclaration.ofClause_text (proper_declaration h) (plain_declaration h)]
  rfl

end Alias

/-- The imports that stand outside of all namespaces, in order. -/
def importsAmong (ns : List Node) : List Import :=
  (ns.filter fun n => n.kind == .namespaceUseDeclaration).flatMap fun n => Import.ofClause n.text

theorem importsAmong_cons (n : Node) (ns : List Node) :
    importsAmong (n :: ns) = (if n.kind == .namespaceUseDeclaration then Import.ofClause n.text
      else []) ++ importsAmong ns := by
  rw [importsAmong, List.filter_cons]
  split <;> rfl

theorem importsAmong_append (ns ms : List Node) :
    importsAmong (ns ++ ms) = importsAmong ns ++ importsAmong ms := by
  rw [importsAmong, List.filter_append, List.flatMap_append]
  rfl

theorem importsAmong_respelled {a : Alias} {ns ns' : List Node}
    (h : List.Forall₂ (Node.Respells a) ns ns') : importsAmong ns = importsAmong ns' := by
  induction h with
  | nil => rfl
  | @cons n n' ns ns' hn _ ih =>
    rw [importsAmong_cons, importsAmong_cons, ← hn.kind, ih]
    split
    case isTrue huse => rw [hn.text_of_not fun hcode => hcode.plain.2 (beq_iff_eq.1 huse)]
    case isFalse => rfl

namespace Region

/-- What two regions know alike, but for one function that the second knows by another name. -/
structure KnowsAs (a : Alias) (r r' : Region) : Prop where
  ns : r.ns = "" ∧ r'.ns = ""
  classes : ∀ key, r'.classes.find? key = r.classes.find? key
  functions : ∀ key, r'.functions.find? key =
    if key = Text.lower a.knownAs then some a.name else r.functions.find? key
  unknown : r.functions.find? (Text.lower a.name) = none

end Region

namespace Names

/-- Two ways to look names up that differ in the other name of a function only. The place of a name
is of no account. -/
def KnowAs (a : Alias) (names names' : Names) : Prop :=
  ∀ offset offset', (names.regionAt offset).KnowsAs a (names'.regionAt offset')

variable {a : Alias} {names names' : Names}

theorem functionCandidates_of_not_mem {name : String} (hname : '\\' ∉ name.toList) (names : Names)
    (offset : Nat) :
    names.functionCandidates name offset =
      match (names.regionAt offset).functions.find? (Text.lower (Text.strip name)) with
      | some target => [Text.lower target]
      | none =>
        if (names.regionAt offset).ns == "" then [Text.lower (Text.strip name)]
        else [Text.lower ((names.regionAt offset).qualify (Text.strip name)),
          Text.lower (Text.strip name)] := by
  have hbackslash : '\\' ∉ (Text.strip name).toList :=
    fun hmem => hname ((Text.strip_sublist name).subset hmem)
  have hstarts : Text.startsWith (Text.strip name) "\\" = false := by
    rw [Text.startsWith, Bool.eq_false_iff]
    intro hfront
    have hfront : ['\\'] <+: (Text.strip name).toList := List.isPrefixOf_iff_prefix.1 hfront
    exact hbackslash (hfront.subset List.mem_cons_self)
  have hsplit : Names.splitFirst (Text.strip name) = (Text.strip name, none) := by
    have hnone : Text.breakAt ['\\'] [] (Text.strip name).toList = none := by
      rw [← Option.not_isSome_iff_eq_none, Text.isSome_breakAt_iff]
      exact fun hmark => hbackslash (hmark.subset List.mem_cons_self)
    rw [Names.splitFirst, Text.cutAt?, show "\\".toList = ['\\'] from rfl, hnone]
    rfl
  rw [Names.functionCandidates, hstarts, hsplit]
  rfl

theorem functionCandidates_of_identifier {name : String} (hname : IsIdentifier name)
    (hblank : Unblanked name) (names : Names) (offset : Nat) :
    names.functionCandidates name offset =
      match (names.regionAt offset).functions.find? (Text.lower name) with
      | some target => [Text.lower target]
      | none =>
        if (names.regionAt offset).ns == "" then [Text.lower name]
        else [Text.lower ((names.regionAt offset).qualify name), Text.lower name] := by
  have hstrip : Text.strip name = name := by
    have hstrip := Text.strip_of_opens (Text.opens_of_not_isBlank hname.toList_ne_nil hblank)
      (Text.closes_of_not_isBlank hname.toList_ne_nil hblank)
    rwa [String.ofList_toList] at hstrip
  rw [functionCandidates_of_not_mem (hname.not_mem_mark (by decide)), hstrip]

namespace KnowAs

variable (h : KnowAs a names names') (offset offset' : Nat)

include h

theorem resolveClass (name : String) :
    names.resolveClass name offset = names'.resolveClass name offset' := by
  have hr := h offset offset'
  have hqualify (s : String) :
      (names.regionAt offset).qualify s = (names'.regionAt offset').qualify s := by
    rw [Region.qualify, Region.qualify, hr.ns.1, hr.ns.2]
  simp only [Names.resolveClass, hqualify, hr.classes]

theorem qualify (name : String) : (names.regionAt offset).qualify name = name ∧
    (names'.regionAt offset').qualify name = name := by
  have hr := h offset offset'
  rw [Region.qualify, Region.qualify, hr.ns.1, hr.ns.2]
  exact ⟨rfl, rfl⟩

theorem functionCandidates {name : String}
    (hname : Text.lower (Text.strip name) ≠ Text.lower a.knownAs) :
    names.functionCandidates name offset = names'.functionCandidates name offset' := by
  have hr := h offset offset'
  have hqualify (s : String) :
      (names.regionAt offset).qualify s = (names'.regionAt offset').qualify s :=
    (h.qualify offset offset' s).1.trans (h.qualify offset offset' s).2.symm
  simp only [Names.functionCandidates, hqualify, hr.classes, hr.functions, if_neg hname, hr.ns.1,
    hr.ns.2]

/-- The other name is looked up as the function. -/
theorem renamed {name : String} (hidentifier : IsIdentifier name ∧ Unblanked name)
    (hlower : Text.lower name = Text.lower a.name)
    (hknown : IsIdentifier a.knownAs ∧ Unblanked a.knownAs) :
    names.functionCandidates name offset = [Text.lower a.name] ∧
      names'.functionCandidates a.knownAs offset' = [Text.lower a.name] := by
  have hr := h offset offset'
  rw [functionCandidates_of_identifier hidentifier.1 hidentifier.2, hlower, hr.unknown, hr.ns.1,
    functionCandidates_of_identifier hknown.1 hknown.2, hr.functions, if_pos rfl]
  exact ⟨rfl, rfl⟩

end KnowAs

end Names

theorem Names.ofTree_of_global {root : Node}
    (h : ∀ c ∈ root.namedChildren, c.kind ≠ .namespaceDefinition) :
    Names.ofTree root =
      ⟨[(importsAmong root.namedChildren).foldl Region.add (.empty 0 root.stop "")]⟩ := by
  have hfold : ∀ (cs : List Node) (current : Region), (∀ c ∈ cs, c.kind ≠ .namespaceDefinition) →
      cs.foldl (fun s child => Names.addChild root.stop s.1 s.2 child) ([], current) =
        ([], (importsAmong cs).foldl Region.add current) := by
    intro cs
    induction cs with
    | nil => exact fun _ _ => rfl
    | cons c cs ih =>
      intro current hcs
      obtain ⟨hc, hcs⟩ := List.forall_mem_cons.1 hcs
      rw [List.foldl_cons]
      cases hk : c.kind == .namespaceUseDeclaration with
      | true =>
        have hadd : Names.addChild root.stop [] current c = ([], current.addImports c) := by
          rw [Names.addChild, beq_iff_eq.1 hk]
        rw [hadd, ih _ hcs, importsAmong_cons, if_pos hk, List.foldl_append]
        rfl
      | false =>
        have hadd : Names.addChild root.stop [] current c = ([], current) := by
          rw [beq_eq_false_iff_ne] at hk
          unfold Names.addChild
          split
          case h_1 hnamespace => exact absurd hnamespace hc
          case h_2 huse => exact absurd huse hk
          case h_3 => rfl
        rw [hadd, ih _ hcs, importsAmong_cons, if_neg (by simp [hk]), List.nil_append]
  rw [Names.ofTree, hfold _ _ h]
  rfl

theorem Region.ns_foldl_add (imports : List Import) (r : Region) :
    (imports.foldl Region.add r).ns = r.ns := by
  induction imports generalizing r with
  | nil => rfl
  | cons i imports ih =>
    have hadd : (r.add i).ns = r.ns := by
      rw [Region.add]
      split <;> rfl
    rw [List.foldl_cons, ih, hadd]

/-- An import that nothing else is known as stands apart. -/
theorem Import.lastKnown?_insert {kind : ImportKind} {key : String} {i : Import}
    {before after : List Import} (halone : ∀ j ∈ before ++ after, j.kind = i.kind →
      Text.lower j.knownAs ≠ Text.lower i.knownAs) :
    lastKnown? kind key (before ++ i :: after) =
      if kind = i.kind ∧ key = Text.lower i.knownAs then some i.name
      else lastKnown? kind key (before ++ after) := by
  rw [lastKnown?, lastKnown?, List.filter_append, List.filter_cons]
  split
  case isTrue hi =>
    rw [Bool.and_eq_true, beq_iff_eq, beq_iff_eq] at hi
    have hnone : ∀ imports : List Import, (∀ j ∈ imports, j ∈ before ++ after) →
        (imports.filter fun j => j.kind == kind && Text.lower j.knownAs == key) = [] := by
      intro imports himports
      rw [List.filter_eq_nil_iff]
      intro j hj hknown
      rw [Bool.and_eq_true, beq_iff_eq, beq_iff_eq] at hknown
      exact halone j (himports j hj) (hknown.1.trans hi.1.symm) (hknown.2.trans hi.2.symm)
    rw [hnone before fun j hj => List.mem_append_left _ hj,
      hnone after fun j hj => List.mem_append_right _ hj, if_pos ⟨hi.1.symm, hi.2.symm⟩]
    rfl
  case isFalse hi =>
    rw [if_neg, List.filter_append]
    rintro ⟨rfl, rfl⟩
    exact hi (by simp)

namespace Region

theorem find?_known_global (imports : List Import) (stop : Nat) {kind : ImportKind}
    (hkind : kind ≠ .const) (key : String) :
    ((imports.foldl add (.empty 0 stop "")).known kind).find? key =
      Import.lastKnown? kind key imports := by
  have hnone : ((Region.empty 0 stop "").known kind).find? key = none := by
    cases kind with
    | const => exact absurd rfl hkind
    | className | function => rfl
  rw [find?_known_foldl imports (.empty 0 stop "") hkind key, hnone, Option.or_none]

/-- One more import makes known the other name, if nothing else is known by either. -/
theorem knowsAs_insert {a : Alias} {earlier later : List Import} (stop stop' : Nat)
    (hunknown : ∀ i ∈ earlier ++ later, i.kind = .function →
      Text.lower i.knownAs ≠ Text.lower a.name ∧ Text.lower i.knownAs ≠ Text.lower a.knownAs) :
    KnowsAs a ((earlier ++ later).foldl add (.empty 0 stop ""))
      ((earlier ++ ⟨.function, a.name, a.knownAs⟩ :: later).foldl add (.empty 0 stop' "")) := by
  have halone : ∀ i ∈ earlier ++ later, i.kind = .function →
      Text.lower i.knownAs ≠ Text.lower a.knownAs := fun i hi hkind => (hunknown i hi hkind).2
  have hclass : ImportKind.className ≠ .const := by decide
  have hfunction : ImportKind.function ≠ .const := by decide
  constructor
  · exact ⟨ns_foldl_add _ _, ns_foldl_add _ _⟩
  · intro key
    have hother : ¬(ImportKind.className = .function ∧ key = Text.lower a.knownAs) :=
      fun h => absurd h.1 (by decide)
    refine (find?_known_global _ stop' hclass key).trans ?_
    rw [Import.lastKnown?_insert halone, if_neg hother]
    exact (find?_known_global _ stop hclass key).symm
  · intro key
    refine (find?_known_global _ stop' hfunction key).trans ?_
    rw [Import.lastKnown?_insert halone]
    split
    case isTrue hkey => rw [if_pos hkey.2]
    case isFalse hkey =>
      rw [if_neg fun hlower => hkey ⟨rfl, hlower⟩]
      exact (find?_known_global _ stop hfunction key).symm
  · refine (find?_known_global _ stop hfunction _).trans ?_
    rw [Import.lastKnown?, List.filter_eq_nil_iff.2, List.getLast?_nil, Option.map_none]
    intro i hi hknown
    rw [Bool.and_eq_true, beq_iff_eq, beq_iff_eq] at hknown
    exact (hunknown i hi hknown.1).1 hknown.2

end Region

/-- A file, and the same file with a function imported under another name and called by it in some
places. -/
structure Script.Respelled (a : Alias) (s s' : Script) : Prop where
  names : s.names = Names.ofTree s.root
  names' : s'.names = Names.ofTree s'.root
  kind : s.root.kind = .program ∧ s'.root.kind = .program
  /-- The file stands in no namespace. -/
  global : ∀ c ∈ s.root.namedChildren, c.kind ≠ .namespaceDefinition
  /-- It imports no function under one of the names. -/
  unknown : ∀ i ∈ importsAmong s.root.namedChildren, i.kind = .function →
    Text.lower i.knownAs ≠ Text.lower a.name ∧ Text.lower i.knownAs ≠ Text.lower a.knownAs
  trees : ∃ before after before' after' decl,
    s.root.children = before ++ after ∧ s'.root.children = before' ++ decl :: after' ∧
    Node.RespellsAll a .program before before' ∧ Node.RespellsAll a .program after after' ∧
    decl.kind = .namespaceUseDeclaration ∧ decl.text = a.text ∧
    ∀ n ∈ Node.preorderAll decl.children, n.kind ∈ [.token, .namespaceUseClause, .name]

theorem Names.regionAt_singleton (r : Region) (offset : Nat) :
    (⟨[r]⟩ : Names).regionAt offset = r := by
  rw [regionAt]
  split
  case h_1 found hfound => exact List.mem_singleton.1 (List.mem_of_find?_eq_some hfound)
  case h_2 => rfl

namespace Script.Respelled

variable {a : Alias} {s s' : Script}

theorem exists_namedChildren (h : s.Respelled a s') : ∃ before after before' after' decl,
    s.root.namedChildren = before ++ after ∧
    s'.root.namedChildren = before' ++ decl :: after' ∧
    List.Forall₂ (Node.Respells a) before before' ∧ List.Forall₂ (Node.Respells a) after after' ∧
    decl.kind = .namespaceUseDeclaration ∧ decl.text = a.text := by
  obtain ⟨before, after, before', after', decl, hroot, hroot', hbefore, hafter, hdecl, htext, -⟩ :=
    h.trees
  have hnamed : decl.isNamed = true := by
    rw [Node.isNamed, hdecl]
    rfl
  have hfilter {ns ns' : List Node} (hns : Node.RespellsAll a .program ns ns') :
      List.Forall₂ (Node.Respells a) (ns.filter Node.isNamed) (ns'.filter Node.isNamed) := by
    apply rel_filter _ (hns.forall₂_of_ne (by decide))
    intro n n' hn
    exact Node.Alike.isNamed (.inl hn)
  refine ⟨before.filter Node.isNamed, after.filter Node.isNamed, before'.filter Node.isNamed,
    after'.filter Node.isNamed, decl, ?_, ?_, hfilter hbefore, hfilter hafter, hdecl, htext⟩
  · rw [Node.namedChildren, hroot, List.filter_append]
  · rw [Node.namedChildren, hroot', List.filter_append, List.filter_cons_of_pos hnamed]

theorem global' (h : s.Respelled a s') :
    ∀ c ∈ s'.root.namedChildren, c.kind ≠ .namespaceDefinition := by
  obtain ⟨before, after, before', after', decl, hroot, hroot', hbefore, hafter, hdecl, -⟩ :=
    h.exists_namedChildren
  have hkinds : (before ++ after).map Node.kind = (before' ++ after').map Node.kind :=
    map_eq_of_forall₂ (fun _ _ hn => Node.Respells.kind hn) (List.rel_append hbefore hafter)
  intro c hc hnamespace
  rw [hroot', List.mem_append, List.mem_cons, or_left_comm, ← List.mem_append] at hc
  rcases hc with rfl | hc
  · rw [hdecl] at hnamespace
    cases hnamespace
  · have hmem : c.kind ∈ (before ++ after).map Node.kind := hkinds ▸ List.mem_map_of_mem hc
    obtain ⟨n, hn, hkind⟩ := List.mem_map.1 hmem
    exact h.global n (hroot ▸ hn) (hkind.trans hnamespace)

/-- The other file has one import more. -/
theorem exists_imports (h : s.Respelled a s') (ha : a.Proper) : ∃ earlier later,
    importsAmong s.root.namedChildren = earlier ++ later ∧
    importsAmong s'.root.namedChildren = earlier ++ ⟨.function, a.name, a.knownAs⟩ :: later := by
  obtain ⟨before, after, before', after', decl, hroot, hroot', hbefore, hafter, hdecl, htext⟩ :=
    h.exists_namedChildren
  refine ⟨importsAmong before, importsAmong after, ?_, ?_⟩
  · rw [hroot, importsAmong_append]
  · rw [hroot', importsAmong_append, importsAmong_cons, if_pos (by rw [hdecl]; rfl), htext,
      Alias.ofClause_text ha, importsAmong_respelled hbefore, importsAmong_respelled hafter]
    rfl

/-- Both files look names up alike, but for the other name. -/
theorem knowAs (h : s.Respelled a s') (ha : a.Proper) : Names.KnowAs a s.names s'.names := by
  obtain ⟨earlier, later, himports, himports'⟩ := h.exists_imports ha
  have hunknown := h.unknown
  rw [himports] at hunknown
  intro offset offset'
  rw [h.names, h.names', Names.ofTree_of_global h.global, Names.ofTree_of_global h.global',
    Names.regionAt_singleton, Names.regionAt_singleton, himports, himports']
  exact Region.knowsAs_insert s.root.stop s'.root.stop hunknown

end Script.Respelled

end PluginAudit.Php
