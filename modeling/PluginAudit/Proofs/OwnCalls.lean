import Mathlib
import PluginAudit.Proofs.AliasedNames
import PluginAudit.Proofs.FirstDefinitions
import PluginAudit.Proofs.LetterCase
import PluginAudit.Proofs.ReportedReturns

namespace PluginAudit

namespace Table

variable {α : Type}

theorem find?_putNew (t : Table α) (key other : String) (value : α) :
    (t.putNew key value).find? other =
      (t.find? other).or (if other = key then some value else none) := by
  rw [putNew, has]
  by_cases h : other = key
  · subst h
    cases hfound : t.find? other with
    | none => simp [find?_put_self]
    | some found => simp [hfound]
  · have hput := find?_put_of_ne t key other value fun he => h he.symm
    rw [if_neg h, Option.or_none]
    split
    · rfl
    · exact hput

/-- Of several entries with one key the first is kept. -/
theorem find?_foldl_putNew (entries t : Table α) (key : String) :
    (entries.foldl (fun t e => t.putNew e.1 e.2) t).find? key =
      (t.find? key).or (entries.find? key) := by
  induction entries generalizing t with
  | nil => simp
  | cons e entries ih =>
    rw [List.foldl_cons, ih, find?_putNew, Option.or_assoc]
    congr 1
    rw [find?]
    by_cases h : e.1 = key
    · simp [h]
    · have hne : key ≠ e.1 := fun he => h he.symm
      simp [h, hne]

end Table

namespace Text

variable {s t : String}

theorem mem_lower_iff {x : Char} (hx : IsCaseless x) : x ∈ (lower s).toList ↔ x ∈ s.toList := by
  constructor
  · intro h
    rw [← List.singleton_infix_iff] at h ⊢
    exact infix_of_infix_lower (by simpa using hx) h
  · exact mem_lower hx

end Text

namespace Php

open Text

/-- A backslash does not open the text. -/
def Unrooted (s : String) : Prop :=
  ¬ ['\\'] <+: s.toList

theorem isCaseless_backslash : IsCaseless '\\' := by decide

theorem unrooted_lower_iff {s : String} : Unrooted (lower s) ↔ Unrooted s :=
  not_congr (singleton_prefix_lower_iff isCaseless_backslash)

theorem unrooted_of_not_mem {s : String} (h : '\\' ∉ s.toList) : Unrooted s :=
  fun hfront => h (hfront.subset List.mem_cons_self)

theorem unrooted_trimBackslashes (s : String) : Unrooted (trimBackslashes s) := by
  rw [Unrooted, trimBackslashes, trim, String.toList_ofList, dropEndWhile_eq]
  intro h
  exact not_prefix_dropWhile rfl _ (h.trans (List.rdropWhile_prefix _ _))

namespace Region

variable {r r' : Region} {name name' : String}

theorem ns_addImports (r : Region) (decl : Node) : (r.addImports decl).ns = r.ns :=
  ns_foldl_add (Import.ofClause decl.text) r

theorem unrooted_qualify (hr : Unrooted r.ns) (h : Unrooted name) : Unrooted (r.qualify name) := by
  rw [qualify]
  split
  · exact h
  next hns =>
    rintro ⟨rest, hrest⟩
    have hne : r.ns.toList ≠ [] := by simpa using hns
    obtain ⟨c, cs, hcs⟩ := List.exists_cons_of_ne_nil hne
    rw [String.toList_append, String.toList_append, hcs] at hrest
    cases hrest
    exact hr ⟨cs, hcs.symm⟩

theorem sameLetters_qualify (hns : SameLetters r.ns r'.ns) (h : SameLetters name name') :
    SameLetters (r.qualify name) (r'.qualify name') := by
  have hempty := hns.eq_empty_iff
  rw [qualify, qualify]
  by_cases hr : r.ns = ""
  · simpa [hr, hempty.1 hr] using h
  · have hr' : r'.ns ≠ "" := fun he => hr (hempty.2 he)
    rw [if_neg (by simpa using hr), if_neg (by simpa using hr')]
    exact (hns.append rfl).append h

theorem qualify_sublist (h : name.toList.Sublist name'.toList) :
    (r.qualify name).toList.Sublist (r.qualify name').toList := by
  rw [qualify, qualify]
  split
  · exact h
  · rw [String.toList_append, String.toList_append (t := name')]
    exact h.append_left _

theorem qualify_injective (h : r.qualify name = r.qualify name') : name = name' := by
  rw [qualify, qualify] at h
  split at h
  · exact h
  · have hlist := congrArg String.toList h
    rw [String.toList_append, String.toList_append (t := name')] at hlist
    exact String.toList_inj.1 (List.append_cancel_left hlist)

end Region

namespace Names

theorem unrooted_ofTree (root : Node) : ∀ r ∈ (Names.ofTree root).regions, Unrooted r.ns := by
  have hempty (start stop : Nat) : Unrooted (Region.empty start stop "").ns :=
    unrooted_of_not_mem List.not_mem_nil
  have huses (uses : List Node) (r : Region) : (uses.foldl Region.addImports r).ns = r.ns := by
    induction uses generalizing r with
    | nil => rfl
    | cons use uses ih => rw [List.foldl_cons, ih, Region.ns_addImports]
  -- Kept by each child of the root, of the regions that are done and of the current one.
  have hfold : ∀ r ∈ (root.namedChildren.foldl (fun s child => addChild root.stop s.1 s.2 child)
      ([], Region.empty 0 root.stop "")).1 ++ [(root.namedChildren.foldl
        (fun s child => addChild root.stop s.1 s.2 child) ([], Region.empty 0 root.stop "")).2],
      Unrooted r.ns := by
    refine List.foldlRecOn (motive := fun s : List Region × Region =>
      ∀ r ∈ s.1 ++ [s.2], Unrooted r.ns) _ _ (by simpa using hempty 0 root.stop) ?_
    rintro ⟨done, current⟩ hregions child -
    rw [List.forall_mem_append, List.forall_mem_singleton] at hregions
    rw [addChild]
    split
    · dsimp only
      split
      next body _ =>
        simp only [List.forall_mem_append, List.forall_mem_cons, huses]
        exact ⟨⟨hregions.1, hregions.2, unrooted_trimBackslashes _, List.forall_mem_nil _⟩,
          hempty _ _, List.forall_mem_nil _⟩
      next =>
        simp only [List.forall_mem_append, List.forall_mem_cons]
        exact ⟨⟨hregions.1, hregions.2, List.forall_mem_nil _⟩, unrooted_trimBackslashes _,
          List.forall_mem_nil _⟩
    · rw [List.forall_mem_append, List.forall_mem_singleton, Region.ns_addImports]
      exact hregions
    · rw [List.forall_mem_append, List.forall_mem_singleton]
      exact hregions
  exact hfold

theorem unrooted_namespaceAt {names : Names} (h : ∀ r ∈ names.regions, Unrooted r.ns)
    (offset : Nat) : Unrooted (names.namespaceAt offset) := by
  rw [namespaceAt]
  obtain hmem | hempty := names.regionAt_mem offset
  · exact h _ hmem
  · rw [hempty]
    exact unrooted_of_not_mem List.not_mem_nil

end Names

namespace CallGraph

/-- The entry that a node makes in the table of functions. -/
def ownEntry (s : Script) (n : Node) : Option (String × Definition) :=
  let name := textOf (n.child? .name)
  if n.kind == .functionDefinition && name != "" then
    let key := Text.lower (qualified s n name)
    some (key, ⟨key, n, s.path, s.names, ""⟩)
  else none

/-- The functions of a script in the order in which it declares them, repetitions included. -/
def declaredFunctions (s : Script) : Table Definition :=
  s.root.preorder.filterMap (ownEntry s)

variable {policy : Policy} {maxDepth : Int} {scripts : List Script}

theorem functions_addClass (g : CallGraph) (s : Script) (n : Node) :
    (g.addClass s n).functions = g.functions := by
  apply addClass_induction (motive := fun h => h.functions = g.functions)
  · rfl
  · exact fun _ h => h
  · intro h clause hg
    rw [addParent]
    split <;> exact hg
  · intro h body _ _ m _ hg
    rw [addMember]
    split
    · dsimp only
      split <;> exact hg
    · dsimp only
      split <;> exact hg
    · exact hg

theorem functions_addScript (g : CallGraph) (s : Script) :
    (g.addScript s).functions =
      (declaredFunctions s).foldl (fun t e => t.putNew e.1 e.2) g.functions := by
  rw [addScript, declaredFunctions]
  induction s.root.preorder generalizing g with
  | nil => rfl
  | cons n ns ih =>
    rw [List.foldl_cons, ih, List.filterMap_cons]
    split
    next hfunction =>
      rw [addFunction, ownEntry, hfunction]
      by_cases hname : textOf (n.child? .name) = "" <;> simp [hname]
    next hfunction =>
      have hnone : ownEntry s n = none := by simp [ownEntry, hfunction]
      rw [hnone]
      split
      · rw [functions_addClass]
      · rfl

theorem find?_functions_ofScripts (key : String) :
    (ofScripts policy maxDepth scripts).functions.find? key =
      Table.find? (scripts.flatMap declaredFunctions) key := by
  have hfold (scripts : List Script) (g : CallGraph) :
      (scripts.foldl addScript g).functions =
        (scripts.flatMap declaredFunctions).foldl (fun t e => t.putNew e.1 e.2) g.functions := by
    induction scripts generalizing g with
    | nil => rfl
    | cons s scripts ih =>
      rw [List.foldl_cons, ih, functions_addScript, List.flatMap_cons, List.foldl_append]
  rw [ofScripts, hfold, Table.find?_foldl_putNew]
  rfl

section Calls

variable {g : CallGraph} {key : String} {d : Definition} {full : String}

/-- A call with these candidates is led to the definition, and so are questions about its name. -/
def FoundBy (g : CallGraph) (candidates : List String) (d : Definition) : Prop :=
  g.resolveFunction candidates = some d.name ∧ g.definition? (.function d.name) = some d

theorem ownEntry_eq_some {s : Script} {n : Node} (h : ownEntry s n = some (key, d)) :
    key = lower (qualified s n (textOf (n.child? .name))) ∧ d.name = key := by
  rw [ownEntry] at h
  dsimp only at h
  split at h
  · cases h
    exact ⟨rfl, rfl⟩
  · cases h

theorem name_of_find?_declaredFunctions
    (h : Table.find? (scripts.flatMap declaredFunctions) key = some d) : d.name = key := by
  obtain ⟨s, -, hmem⟩ := List.mem_flatMap.1 (Table.mem_of_find? h)
  obtain ⟨n, -, hentry⟩ := List.mem_filterMap.1 hmem
  exact (ownEntry_eq_some hentry).2

/-- Questions about a function trim its name once more. -/
theorem definition?_function_iff (hfull : Unrooted full)
    (hd : g.functions.find? (lower full) = some d)
    (hname : ∀ key, g.functions.find? key = some d → key = lower full) :
    g.definition? (.function (lower full)) = some d ↔ strip full = full := by
  rw [definition?, Target.key]
  constructor
  · intro h
    -- The trimmed name is part of the full one, so that it has the same key only if it is that.
    have htrimmed : trimLeft (· == '\\') (strip (lower full)) = lower full := by
      apply eq_of_lower_eq ((trimLeft_sublist _ _).trans (strip_sublist _))
      rw [hname _ h, lower_lower]
    have hlength := (trimLeft_sublist (· == '\\') (strip (lower full))).length_le
    rw [htrimmed] at hlength
    rw [← strip_lower_eq_self_iff, ← String.toList_inj]
    exact (strip_sublist (lower full)).eq_of_length_le hlength
  · intro h
    rw [strip_lower_eq_self_iff.2 h, trimLeft_of_not_prefix (unrooted_lower_iff.2 hfull), lower_lower, hd]

variable {names : Names} {offset : Nat} {word : String}

/-- A call by a name that is not imported is led to the function if trimming leaves the name alone. -/
theorem resolveFunction_bare_iff (hhas : g.functions.has (lower full) = true)
    (hword : '\\' ∉ word.toList) (hfull : SameLetters ((names.regionAt offset).qualify word) full)
    (hfresh : (names.regionAt offset).functions.find? (lower (strip word)) = none) :
    g.resolveFunction (names.functionCandidates word offset) = some (lower full) ↔
      strip word = word := by
  rw [Names.functionCandidates_of_not_mem hword, hfresh, ← hfull.lower_eq]
  rw [← hfull.lower_eq] at hhas
  generalize names.regionAt offset = r at *
  dsimp only
  constructor
  · intro h
    have hmem := List.mem_of_find?_eq_some h
    have hcases : lower (r.qualify word) = lower (r.qualify (strip word)) ∨
        r.ns ≠ "" ∧ lower (r.qualify word) = lower (strip word) := by
      split at hmem
      next hns =>
        rw [List.mem_singleton] at hmem
        exact .inl (by simpa [Region.qualify, hns] using hmem)
      next hns =>
        rw [List.mem_cons, List.mem_singleton] at hmem
        exact hmem.imp_right fun hlast => ⟨by simpa using hns, hlast⟩
    obtain hqualified | ⟨hns, hlast⟩ := hcases
    · have heq := eq_of_lower_eq (Region.qualify_sublist (strip_sublist word)) hqualified.symm
      exact Region.qualify_injective heq
    · -- The candidate without the namespace has no backslash, and the key has one.
      have hmark : '\\' ∈ (r.qualify word).toList := by simp [Region.qualify, hns]
      rw [← mem_lower_iff isCaseless_backslash, hlast, mem_lower_iff isCaseless_backslash] at hmark
      exact absurd ((strip_sublist word).subset hmark) hword
  · intro h
    rw [h]
    split
    next hns =>
      have hqualify : r.qualify word = word := by rw [Region.qualify, if_pos hns]
      rw [hqualify] at hhas ⊢
      exact List.find?_cons_of_pos hhas
    next => exact List.find?_cons_of_pos hhas

theorem resolveFunction_imported_iff {target : String} (hhas : g.functions.has (lower full) = true)
    (hword : '\\' ∉ word.toList)
    (himported : (names.regionAt offset).functions.find? (lower (strip word)) = some target) :
    g.resolveFunction (names.functionCandidates word offset) = some (lower full) ↔
      lower target = lower full := by
  rw [Names.functionCandidates_of_not_mem hword, himported]
  dsimp only
  constructor
  · intro h
    exact (List.mem_singleton.1 (List.mem_of_find?_eq_some h)).symm
  · intro h
    rw [h]
    exact List.find?_cons_of_pos hhas

theorem resolveFunction_rooted (hhas : g.functions.has (lower full) = true)
    (hrooted : SameLetters word full) (hfull : Unrooted full) (hstrip : strip full = full) :
    g.resolveFunction (names.functionCandidates ("\\" ++ word) offset) = some (lower full) := by
  have hword : Unrooted word := by
    rwa [← unrooted_lower_iff, hrooted.lower_eq, unrooted_lower_iff]
  have hends : strip ("\\" ++ word) = "\\" ++ word := by
    rw [← strip_lower_eq_self_iff, ← hrooted.lower_eq, strip_lower_eq_self_iff,
      strip_eq_self_iff] at hstrip
    have hblank : isBlank '\\' = false := by cbv
    rw [strip_eq_self_iff, String.toList_append, List.getLast?_append]
    refine ⟨by simp [hblank], ?_⟩
    cases hlast : word.toList.getLast? with
    | none => simp [hblank]
    | some c => simpa [hlast] using hstrip.2
  have hstarts : startsWith ("\\" ++ word) "\\" = true := by simp [startsWith]
  have htrim : trimLeft (· == '\\') ("\\" ++ word) = word := by
    have hdrop : trimLeft (· == '\\') ("\\" ++ word) = trimLeft (· == '\\') word := by
      simp [trimLeft]
    rw [hdrop, trimLeft_of_not_prefix hword]
  rw [Names.functionCandidates, hends, hstarts, htrim, hrooted.lower_eq]
  exact List.find?_cons_of_pos hhas

/-- The first function of its name, and the calls by its name or its full name, the letters of ASCII
in either case, from code of the same namespace. A call by the full name is led to the function
just when no character at the ends of that counts as white space; a call by the name, if moreover
none stands at the ends of the name, or if what the name is imported as is the function. -/
theorem found_by_own_calls_iff (policy : Policy) (maxDepth : Int) {scripts : List Script}
    {s : Script} {n : Node} {d : Definition} (tree : s.names = Names.ofTree s.root)
    (entry : ownEntry s n = some (d.name, d))
    (identifier : IsIdentifier (textOf (n.child? .name)))
    (first : Table.find? (scripts.flatMap declaredFunctions) d.name = some d)
    {names : Names} {offset : Nat} {word rooted : String}
    (same : SameLetters (names.namespaceAt offset) (s.names.namespaceAt n.start))
    (bare : SameLetters word (textOf (n.child? .name)))
    (full : SameLetters rooted (qualified s n (textOf (n.child? .name)))) :
    let g := ofScripts policy maxDepth scripts
    let name := textOf (n.child? .name)
    let known := (names.regionAt offset).functions.find? (lower (strip word))
    (g.FoundBy (names.functionCandidates word offset) d ↔
      strip (qualified s n name) = qualified s n name ∧
        (known = none ∧ strip name = name ∨
          ∃ target, known = some target ∧ lower target = d.name)) ∧
    (g.FoundBy (names.functionCandidates ("\\" ++ rooted) offset) d ↔
      strip (qualified s n name) = qualified s n name) := by
  intro g name known
  have hkey : d.name = lower (qualified s n name) := (ownEntry_eq_some entry).1
  have hfind : g.functions.find? (lower (qualified s n name)) = some d := by
    rw [← hkey, find?_functions_ofScripts, first]
  have hhas : g.functions.has (lower (qualified s n name)) = true := by
    rw [Table.has, hfind]
    rfl
  have hname (key : String) (h : g.functions.find? key = some d) :
      key = lower (qualified s n name) := by
    rw [find?_functions_ofScripts] at h
    rw [← hkey, name_of_find?_declaredFunctions h]
  have hmark : '\\' ∉ name.toList := identifier.not_mem_mark (by decide)
  have hunrooted : Unrooted (qualified s n name) := by
    have hns := Names.unrooted_namespaceAt (tree ▸ Names.unrooted_ofTree s.root) n.start
    exact Region.unrooted_qualify hns (unrooted_of_not_mem hmark)
  have hexamined := definition?_function_iff hunrooted hfind hname
  have hword : '\\' ∉ word.toList := by
    rwa [← mem_lower_iff isCaseless_backslash, bare.lower_eq, mem_lower_iff isCaseless_backslash]
  have htrimmed : strip word = word ↔ strip name = name := by
    rw [← strip_lower_eq_self_iff, bare.lower_eq, strip_lower_eq_self_iff]
  rw [FoundBy, FoundBy, hkey, hexamined]
  constructor
  · rw [and_comm]
    apply and_congr_right fun _ => ?_
    cases hknown : known with
    | none =>
      rw [resolveFunction_bare_iff hhas hword (Region.sameLetters_qualify same bare) hknown,
        htrimmed]
      simp
    | some target =>
      rw [resolveFunction_imported_iff hhas hword hknown]
      simp
  · constructor
    · exact fun h => h.2
    · exact fun h => ⟨resolveFunction_rooted hhas full hunrooted h, h⟩

end Calls

section Programs

/-- A function that returns `'eval'`. -/
def evalFunction (name : String) : Node :=
  declaration .functionDefinition 1 name [block .compoundStatement 1 [Php.returning 1 evalLiteral]]

/-- A script that declares such a function, in front of which something else may stand. -/
def declaring (front : List Node) (name : String) : Script :=
  let root : Node := .mk .program none 0 99 1 "" (front ++ [evalFunction name])
  ⟨"a.php", .ofBytes ByteArray.empty, root, .ofTree root⟩

/-- The declaration `namespace A;`. -/
def namespaceA : Node :=
  .mk .namespaceDefinition none 0 12 1 "" [.mk .namespaceName (some .name) 0 0 1 "A" []]

def functionOf (s : Script) (key name : String) : Definition :=
  ⟨key, evalFunction name, s.path, s.names, ""⟩

theorem declared_inNamespace :
    let s := declaring [namespaceA] "F"
    ownEntry s (evalFunction "F") = some ("a\\f", functionOf s "a\\f" "F") ∧
      declaredFunctions s = [("a\\f", functionOf s "a\\f" "F")] := by
  constructor <;> cbv

theorem lower_blank : lower "\u3000f" = "\u3000f" := by
  have hlowered : ∀ n ∈ "\u3000f".toList.map Char.toNat, ∀ r ∈ lowerRuns.toList,
      r.mapped? n = none := by
    decide +kernel
  apply lower_of_isLowered
  intro c hc r hr
  exact hlowered c.toNat (List.mem_map_of_mem hc) r hr.val

theorem declared_blank :
    let s := declaring [] "\u3000f"
    ownEntry s (evalFunction "\u3000f") =
        some (lower "\u3000f", functionOf s (lower "\u3000f") "\u3000f") ∧
      declaredFunctions s = [(lower "\u3000f", functionOf s (lower "\u3000f") "\u3000f")] :=
  ⟨rfl, rfl⟩

/-- A function of a namespace is found by its name and by its full name. -/
theorem own_call_found :
    let s := declaring [namespaceA] "F"
    let d := functionOf s "a\\f" "F"
    let g := ofScripts evalPolicy 5 [s]
    s.names = .ofTree s.root ∧ ownEntry s (evalFunction "F") = some (d.name, d) ∧
      IsIdentifier (textOf ((evalFunction "F").child? .name)) ∧
      Table.find? ([s].flatMap declaredFunctions) d.name = some d ∧
      SameLetters (s.names.namespaceAt 50) (s.names.namespaceAt (evalFunction "F").start) ∧
      SameLetters "f" (textOf ((evalFunction "F").child? .name)) ∧
      SameLetters "a\\F" (qualified s (evalFunction "F") (textOf ((evalFunction "F").child? .name))) ∧
      g.FoundBy (s.names.functionCandidates "f" 50) d ∧
      g.FoundBy (s.names.functionCandidates "\\a\\F" 50) d := by
  intro s d g
  have tree : s.names = .ofTree s.root := rfl
  have entry : ownEntry s (evalFunction "F") = some (d.name, d) := declared_inNamespace.1
  have identifier : IsIdentifier (textOf ((evalFunction "F").child? .name)) := by decide
  have first : Table.find? ([s].flatMap declaredFunctions) d.name = some d := by
    rw [List.flatMap_singleton, declared_inNamespace.2]
    rfl
  have same : SameLetters (s.names.namespaceAt 50)
      (s.names.namespaceAt (evalFunction "F").start) := rfl
  have bare : SameLetters "f" (textOf ((evalFunction "F").child? .name)) := by decide
  have full : SameLetters "a\\F"
      (qualified s (evalFunction "F") (textOf ((evalFunction "F").child? .name))) := by decide
  have hstrip : strip "A\\F" = "A\\F" ∧ strip "F" = "F" := ⟨by cbv, by cbv⟩
  obtain ⟨hbare, hrooted⟩ :=
    found_by_own_calls_iff evalPolicy 5 tree entry identifier first same bare full
  exact ⟨tree, entry, identifier, first, same, bare, full,
    hbare.2 ⟨hstrip.1, .inl ⟨rfl, hstrip.2⟩⟩, hrooted.2 hstrip.1⟩

/-- A function whose name starts with an ideographic space, a letter of names, is found by no call,
and nothing is answered about it. -/
theorem blank_name_not_found :
    let s := declaring [] "\u3000f"
    let d := functionOf s (lower "\u3000f") "\u3000f"
    let g := ofScripts evalPolicy 5 [s]
    s.names = .ofTree s.root ∧ ownEntry s (evalFunction "\u3000f") = some (d.name, d) ∧
      IsIdentifier "\u3000f" ∧ Table.find? ([s].flatMap declaredFunctions) d.name = some d ∧
      g.resolveFunction (s.names.functionCandidates "\u3000f" 50) = none ∧
      g.definition? (.function d.name) = none := by
  intro s d g
  have htrimmed : lower (strip "\u3000f") = "f" ∧
      lower (trimLeft (· == '\\') (strip "\u3000f")) = "f" :=
    ⟨by cbv, by cbv⟩
  have hnone : g.functions.find? "f" = none := by
    rw [find?_functions_ofScripts, List.flatMap_singleton, declared_blank.2, lower_blank]
    decide
  refine ⟨rfl, declared_blank.1, by decide, ?_, ?_, ?_⟩
  · have hself : (lower "\u3000f" == d.name) = true := beq_self_eq_true _
    rw [List.flatMap_singleton, declared_blank.2, Table.find?, if_pos hself]
  · have hcandidates : s.names.functionCandidates "\u3000f" 50 = [lower (strip "\u3000f")] := by
      rw [Names.functionCandidates_of_not_mem (by decide)]
      rfl
    rw [hcandidates, htrimmed.1, resolveFunction, List.find?_singleton, Table.has, hnone]
    rfl
  · have hkey : (Target.function d.name).key = "f" := by
      show lower (trimLeft (· == '\\') (strip (lower "\u3000f"))) = "f"
      rw [lower_blank, htrimmed.2]
    rw [definition?, hkey, hnone]

end Programs

end CallGraph

end Php

end PluginAudit
