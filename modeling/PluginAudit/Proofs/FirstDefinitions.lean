import PluginAudit.Proofs.Declarations

namespace PluginAudit

namespace Table

variable {α : Type} {t : Table α} {key other : String} {value found : α}

theorem find?_putNew_of_some (h : t.find? other = some found) :
    (t.putNew key value).find? other = some found := by
  unfold putNew
  split
  case isTrue => exact h
  case isFalse hnew =>
    rw [find?_put]
    split
    case isTrue he =>
      subst he
      exact absurd (by rw [has, h]; rfl) hnew
    case isFalse => exact h

end Table

namespace Php.CallGraph

variable {g h k : CallGraph} {s : Script} {n : Node} {key : String}

/-- The functions and methods of a graph are those of another one too. -/
structure Extends (h g : CallGraph) : Prop where
  functions : ∀ name d, g.functions.find? name = some d → h.functions.find? name = some d
  methods : ∀ cls table, g.methods.find? cls = some table →
    ∃ more, h.methods.find? cls = some more ∧
      ∀ name d, table.find? name = some d → more.find? name = some d

theorem Extends.of_eq (hf : h.functions = g.functions) (hm : h.methods = g.methods) :
    h.Extends g where
  functions name d hd := by rw [hf]; exact hd
  methods cls table ht := ⟨table, by rw [hm]; exact ht, fun _ _ hd => hd⟩

theorem Extends.trans (hg : h.Extends g) (hk : k.Extends h) : k.Extends g where
  functions name d hd := hk.functions name d (hg.functions name d hd)
  methods cls table ht := by
    obtain ⟨more, hmore, hkeep⟩ := hg.methods cls table ht
    obtain ⟨most, hmost, hkeep'⟩ := hk.methods cls more hmore
    exact ⟨most, hmost, fun name d hd => hkeep' name d (hkeep name d hd)⟩

theorem extends_addFunction (g : CallGraph) (s : Script) (n : Node) :
    (g.addFunction s n).Extends g := by
  unfold addFunction
  dsimp only
  split
  case isTrue => exact .of_eq rfl rfl
  case isFalse =>
    refine ⟨fun name d hd => Table.find?_putNew_of_some hd, fun cls table ht => ?_⟩
    exact ⟨table, ht, fun _ _ hd => hd⟩

theorem extends_addEntry (g : CallGraph) (key : String) :
    Extends { g with methods := g.methods.putNew key [] } g where
  functions _ _ hd := hd
  methods _ table ht := ⟨table, Table.find?_putNew_of_some ht, fun _ _ hd => hd⟩

theorem extends_addParent (g : CallGraph) (s : Script) (key : String) (clause : Node) :
    (addParent s key g clause).Extends g := by
  unfold addParent
  split <;> exact .of_eq rfl rfl

theorem extends_addMember (g : CallGraph) (s : Script) (key : String) (m : Node) :
    (addMember s key g m).Extends g := by
  unfold addMember
  split
  case h_1 =>
    dsimp only
    split
    case isTrue => exact .of_eq rfl rfl
    case isFalse =>
      refine ⟨fun _ _ hd => hd, fun cls table ht => ?_⟩
      rw [Table.find?_put]
      split
      case isTrue he =>
        subst he
        refine ⟨_, rfl, fun name d hd => ?_⟩
        rw [ht]
        exact Table.find?_putNew_of_some hd
      case isFalse => exact ⟨table, ht, fun _ _ hd => hd⟩
  case h_2 =>
    dsimp only
    split <;> exact .of_eq rfl rfl
  case h_3 => exact .of_eq rfl rfl

theorem extends_addClass (g : CallGraph) (s : Script) (n : Node) : (g.addClass s n).Extends g := by
  apply addClass_induction (motive := fun h => h.Extends g)
  · exact .of_eq rfl rfl
  · exact fun h hg => hg.trans (extends_addEntry h _)
  · exact fun h clause hg => hg.trans (extends_addParent h s _ clause)
  · exact fun h body _ _ m _ hg => hg.trans (extends_addMember h s _ m)

theorem extends_addScript (g : CallGraph) (s : Script) : (g.addScript s).Extends g := by
  unfold addScript
  refine List.foldlRecOn (motive := fun h : CallGraph => h.Extends g) _ _ (.of_eq rfl rfl) ?_
  intro h hg n _
  split
  case isTrue => exact hg.trans (extends_addFunction h s n)
  case isFalse =>
    split
    case isTrue => exact hg.trans (extends_addClass h s n)
    case isFalse => exact hg

theorem extends_foldl_addScript (g : CallGraph) (scripts : List Script) :
    (scripts.foldl addScript g).Extends g := by
  refine List.foldlRecOn (motive := fun h : CallGraph => h.Extends g) _ _ (.of_eq rfl rfl) ?_
  exact fun h hg s _ => hg.trans (extends_addScript h s)

theorem ofScripts_append (policy : Policy) (maxDepth : Int) (us vs : List Script) :
    ofScripts policy maxDepth (us ++ vs) = vs.foldl addScript (ofScripts policy maxDepth us) :=
  List.foldl_append

/-- The parent that a clause gives to a class. -/
def parentIn? (s : Script) (clause : Node) : Option String :=
  (clause.namedChildren.find? Node.isName).map fun n =>
    classKey (s.names.resolveClass n.text n.start)

/-- The parents that a declaration gives to its class. -/
def classLinks (s : Script) (n : Node) : List (String × String) :=
  if textOf (n.child? .name) == "" then []
  else (n.children.filter fun c => c.kind == .baseClause).flatMap fun clause =>
    (parentIn? s clause).toList.map fun parent => (keyOf s n, parent)

/-- Classes with their parents, in the order in which a script declares them. -/
def parentLinks (s : Script) : List (String × String) :=
  s.root.preorder.flatMap fun n =>
    if n.kind == .functionDefinition then []
    else if n.kind.isClassLike then classLinks s n
    else []

/-- The last parent that a class is given. -/
def lastParent? (cls : String) : List (String × String) → Option String
  | [] => none
  | link :: rest => (lastParent? cls rest).or (if cls = link.1 then some link.2 else none)

def addLink (parents : Table String) (link : String × String) : Table String :=
  parents.put link.1 link.2

theorem find?_foldl_addLink (cls : String) (links : List (String × String))
    (parents : Table String) :
    (links.foldl addLink parents).find? cls = (lastParent? cls links).or (parents.find? cls) := by
  induction links generalizing parents with
  | nil => rfl
  | cons link rest ih =>
    rw [List.foldl_cons, ih, lastParent?, Option.or_assoc, addLink, Table.find?_put]
    split <;> rfl

theorem parents_addParent (g : CallGraph) (s : Script) (key : String) (clause : Node) :
    (addParent s key g clause).parents =
      ((parentIn? s clause).toList.map fun parent => (key, parent)).foldl addLink g.parents := by
  unfold addParent parentIn?
  cases clause.namedChildren.find? Node.isName <;> rfl

theorem parents_addMember (g : CallGraph) (s : Script) (key : String) (m : Node) :
    (addMember s key g m).parents = g.parents := by
  unfold addMember
  split
  case h_1 => dsimp only; split <;> rfl
  case h_2 => dsimp only; split <;> rfl
  case h_3 => rfl

theorem parents_foldl_addMember (members : List Node) (g : CallGraph) :
    (members.foldl (addMember s key) g).parents = g.parents := by
  induction members generalizing g with
  | nil => rfl
  | cons m rest ih => rw [List.foldl_cons, ih, parents_addMember]

theorem parents_foldl_addParent (clauses : List Node) (g : CallGraph) :
    (clauses.foldl (addParent s key) g).parents =
      (clauses.flatMap fun clause =>
        (parentIn? s clause).toList.map fun parent => (key, parent)).foldl addLink g.parents := by
  induction clauses generalizing g with
  | nil => rfl
  | cons clause rest ih =>
    rw [List.foldl_cons, ih, parents_addParent, List.flatMap_cons, List.foldl_append]

theorem parents_addClass (g : CallGraph) (s : Script) (n : Node) :
    (g.addClass s n).parents = (classLinks s n).foldl addLink g.parents := by
  unfold addClass classLinks
  dsimp only
  split
  case isTrue => rfl
  case isFalse =>
    -- The members of the body come after the clauses and leave the parents alone.
    split
    case h_1 => exact parents_foldl_addParent _ _
    case h_2 body _ =>
      rw [parents_foldl_addMember]
      exact parents_foldl_addParent _ _

theorem parents_addScript (g : CallGraph) (s : Script) :
    (g.addScript s).parents = (parentLinks s).foldl addLink g.parents := by
  unfold addScript parentLinks
  generalize s.root.preorder = nodes
  induction nodes generalizing g with
  | nil => rfl
  | cons n rest ih =>
    rw [List.foldl_cons, ih, List.flatMap_cons, List.foldl_append]
    congr 1
    split
    case isTrue => unfold addFunction; dsimp only; split <;> rfl
    case isFalse =>
      split
      case isTrue => exact parents_addClass g s n
      case isFalse => rfl

theorem parents_foldl_addScript (g : CallGraph) (scripts : List Script) :
    (scripts.foldl addScript g).parents =
      (scripts.flatMap parentLinks).foldl addLink g.parents := by
  induction scripts generalizing g with
  | nil => rfl
  | cons s rest ih =>
    rw [List.foldl_cons, ih, parents_addScript, List.flatMap_cons, List.foldl_append]

theorem findMethod_of_declared {cls method : String} {table : Table Definition} {d : Definition}
    (ht : g.methods.find? (classKey cls) = some table)
    (hd : table.find? (Text.lower method) = some d) : g.findMethod cls method = some d := by
  have bound : ∃ less, g.searchBound = less + 1 := by
    have grows (traits : Table (List String)) (start : Nat) :
        start ≤ traits.foldl (fun n e => n + e.2.length) start := by
      induction traits generalizing start with
      | nil => exact Nat.le_refl start
      | cons e rest ih => exact Nat.le_trans (Nat.le_add_right _ _) (ih _)
    exact Nat.exists_eq_add_of_le' (Nat.le_trans (by omega) (grows g.traits _))
  obtain ⟨less, hless⟩ := bound
  rw [findMethod, hless, searchMethod]
  simp [ht, hd]

theorem scopeClass_congr {cls : String} (same : h.parents.find? cls = g.parents.find? cls)
    (scope : Option Node) (names : Names) :
    h.scopeClass scope cls names = g.scopeClass scope cls names := by
  unfold scopeClass
  rw [same]

/-- What scripts declare when others follow them: functions and methods stay, and are found as
before. The parent of a class stays, and with it the class that each scope stands for, unless the
class is declared again with another parent; then the last one counts. -/
theorem first_definitions_stay (policy : Policy) (maxDepth : Int) (us vs : List Script) :
    let g := ofScripts policy maxDepth us
    let h := ofScripts policy maxDepth (us ++ vs)
    (∀ name d, g.functions.find? name = some d → h.functions.find? name = some d) ∧
    (∀ cls table name d, g.methods.find? cls = some table → table.find? name = some d →
      ∃ more, h.methods.find? cls = some more ∧ more.find? name = some d) ∧
    (∀ cls method table d, g.methods.find? (classKey cls) = some table →
      table.find? (Text.lower method) = some d → h.findMethod cls method = g.findMethod cls method) ∧
    ∀ cls parent, g.parents.find? cls = some parent →
      (h.parents.find? cls = some parent ↔
        ∀ last, lastParent? cls (vs.flatMap parentLinks) = some last → last = parent) ∧
      (h.parents.find? cls = some parent → ∀ scope names,
        h.scopeClass scope cls names = g.scopeClass scope cls names) := by
  intro g h
  have keeps : h.Extends g := by
    rw [show h = vs.foldl addScript g from ofScripts_append policy maxDepth us vs]
    exact extends_foldl_addScript g vs
  have parents (cls : String) : h.parents.find? cls =
      (lastParent? cls (vs.flatMap parentLinks)).or (g.parents.find? cls) := by
    rw [show h = vs.foldl addScript g from ofScripts_append policy maxDepth us vs,
      parents_foldl_addScript, find?_foldl_addLink]
  refine ⟨keeps.functions, ?_, ?_, ?_⟩
  · intro cls table name d ht hd
    obtain ⟨more, hmore, hkeep⟩ := keeps.methods cls table ht
    exact ⟨more, hmore, hkeep name d hd⟩
  · intro cls method table d ht hd
    obtain ⟨more, hmore, hkeep⟩ := keeps.methods _ table ht
    rw [findMethod_of_declared ht hd, findMethod_of_declared hmore (hkeep _ d hd)]
  · intro cls parent hparent
    constructor
    · rw [parents, hparent]
      cases lastParent? cls (vs.flatMap parentLinks) with
      | none => simp
      | some last => simp
    · intro same scope names
      exact scopeClass_congr (same.trans hparent.symm) scope names

/-- The script `class A extends <parent> { function m() { return parent::x(); } }`. -/
def extending (parent : String) : Script where
  path := "a.php"
  source := .ofBytes ByteArray.empty
  names := default
  root := .mk .program none 0 0 1 "" [
    .mk .classDeclaration none 0 0 1 "" [
      .mk .name (some .name) 0 0 1 "A" [],
      .mk .baseClause none 0 0 1 "" [.mk .qualifiedName none 0 0 1 parent []],
      .mk .declarationList (some .body) 0 0 1 "" [parentMethod]]]
where
  parentMethod : Node :=
    .mk .methodDeclaration none 0 0 1 "" [
      .mk .name (some .name) 0 0 1 "m" [],
      .mk .compoundStatement (some .body) 0 0 1 "" [
        .mk .returnStatement none 0 0 1 "" [
          .mk .scopedCallExpression none 0 0 1 "parent::x()" [
            .mk .relativeScope (some .scope) 0 0 1 "parent" [],
            .mk .name (some .name) 0 0 1 "x" []]]]]

def parentMethod : Definition :=
  ⟨"m", extending.parentMethod, "a.php", default, "a"⟩

/-- The call graph of such a script. -/
def extendingGraph (parent : String) : CallGraph where
  policy := default
  maxDepth := 5
  functions := []
  methods := [("a", [("m", parentMethod)])]
  parents := [("a", parent)]
  traits := []

theorem ofScripts_extending : ofScripts default 5 [extending "\\B"] = extendingGraph "b" := by
  cbv

theorem parentLinks_extending : parentLinks (extending "\\C") = [("a", "c")] := by
  cbv

theorem method_of_redeclared_class_stays :
    (ofScripts default 5 [extending "\\B"]).findMethod "A" "m" = some parentMethod ∧
    (ofScripts default 5 [extending "\\B", extending "\\C"]).findMethod "A" "m" =
      some parentMethod := by
  obtain ⟨-, -, stays, -⟩ := first_definitions_stay default 5 [extending "\\B"] [extending "\\C"]
  have found : (extendingGraph "b").findMethod "A" "m" = some parentMethod := by cbv
  have declared : (extendingGraph "b").methods.find? (classKey "A") =
      some [("m", parentMethod)] := by cbv
  have method : Table.find? [("m", parentMethod)] (Text.lower "m") = some parentMethod := by cbv
  rw [ofScripts_extending] at stays ⊢
  exact ⟨found, (stays "A" "m" _ _ declared method).trans found⟩

/-- A class that is declared again with another parent changes what `parent` stands for in the
methods of the first declaration. -/
theorem later_parent_wins :
    let g := ofScripts default 5 [extending "\\B"]
    let h := ofScripts default 5 ([extending "\\B"] ++ [extending "\\C"])
    g.parents.find? "a" = some "b" ∧ h.parents.find? "a" = some "c" := by
  intro g h
  have links : [extending "\\C"].flatMap parentLinks = [("a", "c")] := by
    rw [List.flatMap_singleton, parentLinks_extending]
  constructor
  · rw [show g = extendingGraph "b" from ofScripts_extending]
    rfl
  · rw [show h = [extending "\\C"].foldl addScript g from ofScripts_append ..,
      parents_foldl_addScript, find?_foldl_addLink, links]
    rfl

end Php.CallGraph

end PluginAudit
