import PluginAudit.Proofs.MethodSearch

namespace PluginAudit.Php.CallGraph

section Links

variable (g : CallGraph) (method : String)

/-- From a class to itself, its parent, the parent of that one and so on. -/
def Ancestor : String → String → Prop :=
  Relation.ReflTransGen fun a b => g.parents.find? a = some b

/-- What looking for the method in some traits, one after the other, ends with: each trait gives its
own method or else what its own traits give. A trait on the path to itself gives nothing more. -/
inductive InTraits : List String → List String → Option Definition → Prop
  | nil {path} : InTraits path [] none
  | again {path key rest found} : key ∈ path → InTraits path rest found →
      InTraits path (key :: rest) found
  | own {path key rest d} : key ∉ path → g.own? method key = some d →
      InTraits path (key :: rest) (some d)
  | nested {path key rest d} : key ∉ path → g.own? method key = none →
      InTraits (key :: path) (g.traitsOf key) (some d) → InTraits path (key :: rest) (some d)
  | next {path key rest found} : key ∉ path → g.own? method key = none →
      InTraits (key :: path) (g.traitsOf key) none → InTraits path rest found →
      InTraits path (key :: rest) found

/-- The precedence of methods: a class gives its own method, or else what its traits give, or else
what its parent gives. A class on the path to itself gives nothing more. -/
inductive Selects : List String → String → Option Definition → Prop
  | again {path key} : key ∈ path → Selects path key none
  | found {path key d} : key ∉ path → InTraits g method [] [key] (some d) →
      Selects path key (some d)
  | last {path key} : key ∉ path → InTraits g method [] [key] none →
      g.parents.find? key = none → Selects path key none
  | parent {path key parent found} : key ∉ path → InTraits g method [] [key] none →
      g.parents.find? key = some parent → Selects (key :: path) parent found →
      Selects path key found

/-- Below the traits of a class and of its ancestors nothing declares the method. -/
def Shallow (key : String) : Prop :=
  ∀ k, g.Ancestor key k → ∀ t ∈ g.traitsOf k, ∀ u ∈ g.links t, ∀ x, g.Linked u x →
    g.own? method x = none

end Links

variable {g : CallGraph} {method key : String}

section Precedence

variable {path keys : List String} {found found' : Option Definition} {d : Definition}

theorem exists_inTraits (g : CallGraph) (method : String) (path keys : List String) :
    ∃ found, g.InTraits method path keys found := by
  induction hn : g.unseen path using Nat.strongRecOn generalizing path keys with
  | ind n ih =>
    induction keys with
    | nil => exact ⟨none, .nil⟩
    | cons key rest ihrest =>
      obtain ⟨found, hfound⟩ := ihrest
      by_cases hkey : key ∈ path
      · exact ⟨found, .again hkey hfound⟩
      cases hown : g.own? method key with
      | some d => exact ⟨some d, .own hkey hown⟩
      | none =>
        have hnested : ∃ nested, g.InTraits method (key :: path) (g.traitsOf key) nested := by
          cases htraits : g.traitsOf key with
          | nil => exact ⟨none, .nil⟩
          | cons t more =>
            have hless := g.unseen_cons hkey
            rw [links, htraits, List.length_append, List.length_cons] at hless
            exact ih _ (by omega) (key :: path) (t :: more) rfl
        obtain ⟨nested, hnested⟩ := hnested
        cases nested with
        | some d => exact ⟨some d, .nested hkey hown hnested⟩
        | none => exact ⟨found, .next hkey hown hnested hfound⟩

theorem InTraits.unique (h : g.InTraits method path keys found)
    (h' : g.InTraits method path keys found') : found = found' := by
  induction h generalizing found' with
  | nil => cases h'; rfl
  | again hkey _ ih =>
    cases h' with
    | again _ h' => exact ih h'
    | own hnot _ => exact absurd hkey hnot
    | nested hnot _ _ => exact absurd hkey hnot
    | next hnot _ _ _ => exact absurd hkey hnot
  | own hnot hown =>
    cases h' with
    | again hkey _ => exact absurd hkey hnot
    | own _ hown' => exact hown.symm.trans hown'
    | nested _ hnone _ => rw [hown] at hnone; cases hnone
    | next _ hnone _ _ => rw [hown] at hnone; cases hnone
  | nested hnot hnone _ ih =>
    cases h' with
    | again hkey _ => exact absurd hkey hnot
    | own _ hown => rw [hown] at hnone; cases hnone
    | nested _ _ h' => exact ih h'
    | next _ _ h' _ => cases ih h'
  | next hnot hnone _ _ ihnested ih =>
    cases h' with
    | again hkey _ => exact absurd hkey hnot
    | own _ hown => rw [hown] at hnone; cases hnone
    | nested _ _ h' => cases ihnested h'
    | next _ _ _ h' => exact ih h'

theorem exists_selects (g : CallGraph) (method : String) (path : List String) (key : String) :
    ∃ found, g.Selects method path key found := by
  induction hn : g.unseen path using Nat.strongRecOn generalizing path key with
  | ind n ih =>
    by_cases hkey : key ∈ path
    · exact ⟨none, .again hkey⟩
    obtain ⟨found, hfound⟩ := g.exists_inTraits method [] [key]
    cases found with
    | some d => exact ⟨some d, .found hkey hfound⟩
    | none =>
      cases hparent : g.parents.find? key with
      | none => exact ⟨none, .last hkey hfound hparent⟩
      | some parent =>
        have hless := g.unseen_cons hkey
        rw [links, hparent, List.length_append, Option.toList_some, List.length_singleton] at hless
        obtain ⟨above, habove⟩ := ih _ (by omega) (key :: path) parent rfl
        exact ⟨above, .parent hkey hfound hparent habove⟩

theorem Selects.unique (h : g.Selects method path key found)
    (h' : g.Selects method path key found') : found = found' := by
  induction h generalizing found' with
  | again hkey =>
    cases h' with
    | again => rfl
    | found hnot _ => exact absurd hkey hnot
    | last => rfl
    | parent hnot _ _ _ => exact absurd hkey hnot
  | found hnot hfound =>
    cases h' with
    | again hkey => exact absurd hkey hnot
    | found _ hfound' => exact hfound.unique hfound'
    | last _ hnone _ => exact hfound.unique hnone
    | parent _ hnone _ _ => cases hfound.unique hnone
  | last hnot hnone hlast =>
    cases h' with
    | again => rfl
    | found _ hfound => exact hnone.unique hfound
    | last => rfl
    | parent _ _ hparent _ => rw [hlast] at hparent; cases hparent
  | parent hnot hnone hparent _ ih =>
    cases h' with
    | again hkey => exact absurd hkey hnot
    | found _ hfound => cases hnone.unique hfound
    | last _ _ hlast => rw [hlast] at hparent; cases hparent
    | parent _ _ hparent' h' =>
      rw [hparent] at hparent'
      cases hparent'
      exact ih h'

theorem mem_links_of_trait {k t : String} (h : t ∈ g.traitsOf k) : t ∈ g.links k :=
  List.mem_append_left _ h

theorem mem_links_of_parent {k p : String} (h : g.parents.find? k = some p) : p ∈ g.links k :=
  List.mem_append_right _ (by rw [h]; exact List.mem_singleton_self p)

theorem InTraits.declared (h : g.InTraits method path keys (some d)) :
    ∃ k ∈ keys, ∃ x, g.Linked k x ∧ g.own? method x = some d := by
  generalize hfound : some d = found at h
  induction h with
  | nil => cases hfound
  | again _ _ ih =>
    obtain ⟨k, hk, hdeclared⟩ := ih hfound
    exact ⟨k, List.mem_cons_of_mem _ hk, hdeclared⟩
  | @own path key rest d' _ hown => exact ⟨key, List.mem_cons_self, key, .refl, hfound ▸ hown⟩
  | @nested path key rest d' _ _ _ ih =>
    obtain ⟨k, hk, x, hx, hown⟩ := ih hfound
    exact ⟨key, List.mem_cons_self, x, .head (mem_links_of_trait hk) hx, hown⟩
  | next _ _ _ _ _ ih =>
    obtain ⟨k, hk, hdeclared⟩ := ih hfound
    exact ⟨k, List.mem_cons_of_mem _ hk, hdeclared⟩

theorem Selects.declared (h : g.Selects method path key (some d)) :
    ∃ k, g.Linked key k ∧ g.own? method k = some d := by
  generalize hfound : some d = found at h
  induction h with
  | again => cases hfound
  | last => cases hfound
  | found _ h =>
    cases hfound
    obtain ⟨k, hk, hdeclared⟩ := h.declared
    obtain rfl := List.mem_singleton.1 hk
    exact hdeclared
  | parent _ _ hparent _ ih =>
    obtain ⟨k, hk, hown⟩ := ih hfound
    exact ⟨k, .head (mem_links_of_parent hparent) hk, hown⟩

/-- A class and its traits declare nothing if nothing is found in them. -/
theorem InTraits.silent (h : g.InTraits method path keys found) (hfound : found = none)
    (hpath : ∀ k ∈ path, g.own? method k = none) : ∀ k ∈ keys, g.own? method k = none := by
  induction h with
  | nil => simp
  | again hkey _ ih => exact List.forall_mem_cons.2 ⟨hpath _ hkey, ih hfound hpath⟩
  | own => cases hfound
  | nested => cases hfound
  | next _ hnone _ _ _ ih => exact List.forall_mem_cons.2 ⟨hnone, ih hfound hpath⟩

theorem InTraits.silent_class (h : g.InTraits method [] [key] none) :
    g.own? method key = none ∧ ∀ t ∈ g.traitsOf key, g.own? method t = none := by
  cases h with
  | again hkey _ => cases hkey
  | next _ hown hnested _ => exact ⟨hown, hnested.silent rfl (by simpa using hown)⟩

/-- Where nothing below the traits declares the method, the first of them that does is selected. -/
theorem InTraits.findSome? (h : g.InTraits method path keys (some d))
    (hpath : ∀ k ∈ path, g.own? method k = none)
    (hbelow : ∀ t ∈ keys, ∀ u ∈ g.links t, ∀ x, g.Linked u x → g.own? method x = none) :
    keys.findSome? (g.own? method) = some d := by
  generalize hfound : some d = found at h
  induction h with
  | nil => cases hfound
  | again hkey _ ih =>
    obtain ⟨-, hbelow⟩ := List.forall_mem_cons.1 hbelow
    simpa [hpath _ hkey] using ih hpath hbelow hfound
  | own _ hown =>
    rw [List.findSome?_cons, hown]
  | nested _ _ hnested _ =>
    obtain ⟨u, hu, x, hx, hown⟩ := hnested.declared
    have hnone := hbelow _ List.mem_cons_self u (mem_links_of_trait hu) x hx
    rw [hnone] at hown
    cases hown
  | next _ hnone _ _ _ ih =>
    obtain ⟨-, hbelow⟩ := List.forall_mem_cons.1 hbelow
    simpa [hnone] using ih hpath hbelow hfound

theorem Shallow.parent {p : String} (h : g.Shallow method key)
    (hp : g.parents.find? key = some p) : g.Shallow method p :=
  fun k hk => h k (.head hp hk)

theorem Shallow.level_traits (h : g.Shallow method key)
    (htraits : ∀ t ∈ g.traitsOf key, g.own? method t = none) (n : Nat) :
    (g.level n (g.traitsOf key)).findSome? (g.own? method) = none := by
  rw [List.findSome?_eq_none_iff]
  intro x hx
  cases n with
  | zero => exact htraits x hx
  | succ n =>
    obtain ⟨u, hu, hlinked⟩ := linked_of_mem_level (n := n) hx
    obtain ⟨t, ht, hu⟩ := List.mem_flatMap.1 hu
    exact h key .refl t ht u hu x hlinked

theorem Selects.nearest (h : g.Selects method path key (some d)) (hshallow : g.Shallow method key) :
    g.Nearest method [key] d := by
  generalize hfound : some d = found at h
  induction h with
  | again => cases hfound
  | last => cases hfound
  | found _ h =>
    cases hfound
    cases h with
    | again hkey _ => cases hkey
    | own _ hown => exact ⟨0, by simp [level, hown], by simp⟩
    | nested _ hown hnested =>
      have htraits := hnested.findSome? (by simpa using hown) (hshallow _ .refl)
      apply Nearest.cons (by simp [hown])
      exact ⟨0, by simp [level, links, htraits], by simp⟩
    | next _ _ _ hrest => cases hrest
  | @parent path key p found _ hnone hparent _ ih =>
    obtain ⟨n, hn, hbefore⟩ := ih (hshallow.parent hparent) hfound
    obtain ⟨hown, htraits⟩ := hnone.silent_class
    -- The traits stand before the parent on each level, and have nothing to offer on any.
    have hlevel (i : Nat) : (g.level i (g.links key)).findSome? (g.own? method) =
        (g.level i [p]).findSome? (g.own? method) := by
      rw [links, hparent, level_append, List.findSome?_append, hshallow.level_traits htraits]
      rfl
    apply Nearest.cons (by simp [hown])
    rw [List.flatMap_singleton]
    exact ⟨n, (hlevel n).trans hn, fun i hi => (hlevel i).trans (hbefore i hi)⟩

/-- The classes that are tried in vain are closed under parents. -/
theorem Selects.tried (h : g.Selects method path key found) (hfound : found = none) :
    ∃ tried : List String, (key ∈ tried ∨ key ∈ path) ∧ ∀ k ∈ tried,
      g.InTraits method [] [k] none ∧ ∀ p, g.parents.find? k = some p → p ∈ tried ∨ p ∈ path := by
  induction h with
  | again hkey => exact ⟨[], .inr hkey, by simp⟩
  | found => cases hfound
  | @last path key _ hnone hlast =>
    refine ⟨[key], .inl List.mem_cons_self, ?_⟩
    simp [hnone, hlast]
  | @parent path key p found _ hnone hparent _ ih =>
    obtain ⟨tried, hp, htried⟩ := ih hfound
    have hmove {x : String} (hx : x ∈ tried ∨ x ∈ key :: path) : x ∈ key :: tried ∨ x ∈ path := by
      rw [List.mem_cons] at hx ⊢
      tauto
    refine ⟨key :: tried, .inl List.mem_cons_self, List.forall_mem_cons.2 ⟨⟨hnone, ?_⟩, ?_⟩⟩
    · intro q hq
      rw [hparent] at hq
      cases hq
      exact hmove hp
    · intro k hk
      obtain ⟨hk, hparents⟩ := htried k hk
      exact ⟨hk, fun q hq => hmove (hparents q hq)⟩

theorem Selects.silent (h : g.Selects method [] key none) (hshallow : g.Shallow method key) :
    ∀ x, g.Linked key x → g.own? method x = none := by
  obtain ⟨tried, hkey, htried⟩ := h.tried rfl
  have hclosed : ∀ k, g.Ancestor key k → k ∈ tried := by
    intro k hk
    induction hk with
    | refl => exact hkey.resolve_right List.not_mem_nil
    | tail _ hparent ih => exact ((htried _ ih).2 _ hparent).resolve_right List.not_mem_nil
  intro x hx
  -- What is linked is an ancestor, a trait of one, or lies below such a trait.
  have hplace : g.Ancestor key x ∨ (∃ k, g.Ancestor key k ∧ x ∈ g.traitsOf k) ∨
      ∃ k, g.Ancestor key k ∧ ∃ t ∈ g.traitsOf k, ∃ u ∈ g.links t, g.Linked u x := by
    induction hx with
    | refl => exact .inl .refl
    | @tail y z _ hlink ih =>
      obtain hy | ⟨k, hk, ht⟩ | ⟨k, hk, t, ht, u, hu, hy⟩ := ih
      · obtain htrait | hparent := List.mem_append.1 hlink
        · exact .inr (.inl ⟨y, hy, htrait⟩)
        · exact .inl (.tail hy (Option.mem_toList.1 hparent))
      · exact .inr (.inr ⟨k, hk, y, ht, z, hlink, .refl⟩)
      · exact .inr (.inr ⟨k, hk, t, ht, u, hu, .tail hy hlink⟩)
  obtain hx | ⟨k, hk, ht⟩ | ⟨k, hk, t, ht, u, hu, hx⟩ := hplace
  · exact (htried x (hclosed x hx)).1.silent_class.1
  · exact (htried k (hclosed k hk)).1.silent_class.2 x ht
  · exact hshallow k hk t ht u hu x hx

end Precedence

/-- What the search for a method gives in any graph. It ends, with the definition that is nearest to
the class, and without one if and only if no linked class or trait declares the method. The
precedence of methods selects exactly one outcome; where it selects a definition the search finds
one too, and the same one if nothing below the traits of the class and its ancestors declares the
method. -/
theorem method_lookup_nearest (g : CallGraph) (cls method : String) :
    (∀ d, g.findMethod cls method = some d ↔ g.Nearest (Text.lower method) [classKey cls] d) ∧
    (g.findMethod cls method = none ↔
      ∀ k, g.Linked (classKey cls) k → g.own? (Text.lower method) k = none) ∧
    ∃ found, (∀ r, g.Selects (Text.lower method) [] (classKey cls) r ↔ r = found) ∧
      (found.isSome → (g.findMethod cls method).isSome) ∧
      (g.Shallow (Text.lower method) (classKey cls) → g.findMethod cls method = found) := by
  refine ⟨g.findMethod_eq_some_iff cls method, g.findMethod_eq_none_iff cls method, ?_⟩
  obtain ⟨found, hfound⟩ := g.exists_selects (Text.lower method) [] (classKey cls)
  refine ⟨found, ?_, ?_, ?_⟩
  · intro r
    constructor
    · intro hr
      exact hr.unique hfound
    · rintro rfl
      exact hfound
  · intro hsome
    obtain ⟨d, rfl⟩ := Option.isSome_iff_exists.1 hsome
    obtain ⟨k, hk, hown⟩ := hfound.declared
    rw [Option.isSome_iff_ne_none, Ne, findMethod_eq_none_iff]
    intro hnone
    rw [hnone k hk] at hown
    cases hown
  · intro hshallow
    cases found with
    | some d => exact (g.findMethod_eq_some_iff cls method d).2 (hfound.nearest hshallow)
    | none => exact (g.findMethod_eq_none_iff cls method).2 (hfound.silent hshallow)

section Programs

def declaredMethod (name : String) : Node :=
  .mk .methodDeclaration none 0 0 1 "" [.mk .name (some .name) 0 0 1 name []]

def usedTrait (name : String) : Node :=
  .mk .useDeclaration none 0 0 1 "" [.mk .qualifiedName none 0 0 1 name []]

def classNode (kind : Kind) (name : String) (clauses members : List Node) : Node :=
  .mk kind none 0 0 1 "" (.mk .name (some .name) 0 0 1 name [] :: clauses ++
    [.mk .declarationList (some .body) 0 0 1 "" members])

/-- The script `class A extends \P { use \T; } trait T { ... } trait U { function m() {} }
class P { function m() {} }`. -/
def usingTrait (members : List Node) : Script where
  path := "a.php"
  source := .ofBytes ByteArray.empty
  names := default
  root := .mk .program none 0 0 1 "" [
    classNode .classDeclaration "A"
      [.mk .baseClause none 0 0 1 "" [.mk .qualifiedName none 0 0 1 "\\P" []]]
      [usedTrait "\\T"],
    classNode .traitDeclaration "T" [] members,
    classNode .traitDeclaration "U" [] [declaredMethod "m"],
    classNode .classDeclaration "P" [] [declaredMethod "m"]]

def declaredBy (cls : String) : Definition :=
  ⟨"m", declaredMethod "m", "a.php", default, cls⟩

/-- The call graph of such a script, from what the trait `T` declares and uses. -/
def usingGraph (declared : Table Definition) (used : Table (List String)) : CallGraph where
  policy := default
  maxDepth := 7
  functions := []
  methods := [("a", []), ("t", declared), ("u", [("m", declaredBy "u")]),
    ("p", [("m", declaredBy "p")])]
  parents := [("a", "p")]
  traits := ("a", ["t"]) :: used

theorem ofScripts_declaring :
    ofScripts default 7 [usingTrait [declaredMethod "m"]] =
      usingGraph [("m", declaredBy "t")] [] := by
  cbv

theorem ofScripts_nesting :
    ofScripts default 7 [usingTrait [usedTrait "\\U"]] = usingGraph [] [("t", ["u"])] := by
  cbv

theorem classKey_a : classKey "A" = "a" ∧ Text.lower "m" = "m" :=
  ⟨by cbv, by cbv⟩

theorem ancestor_usingGraph {declared : Table Definition} {used : Table (List String)} {k : String}
    (h : (usingGraph declared used).Ancestor "a" k) : k = "a" ∨ k = "p" := by
  induction h with
  | refl => exact .inl rfl
  | tail _ hparent ih =>
    obtain rfl | rfl := ih
    · exact .inr (Option.some.inj hparent).symm
    · cases hparent

/-- The method of a trait comes before that of the parent. -/
theorem trait_method_found :
    let g := ofScripts default 7 [usingTrait [declaredMethod "m"]]
    g.Shallow "m" "a" ∧ g.Selects "m" [] "a" (some (declaredBy "t")) ∧
      g.findMethod "A" "m" = some (declaredBy "t") := by
  intro g
  have hg : g = usingGraph [("m", declaredBy "t")] [] := ofScripts_declaring
  have hshallow : g.Shallow "m" "a" := by
    rw [hg]
    intro k hk t ht u hu
    obtain rfl | rfl := ancestor_usingGraph hk
    · obtain rfl := List.mem_singleton.1 ht
      cases hu
    · cases ht
  have hselects : g.Selects "m" [] "a" (some (declaredBy "t")) := by
    rw [hg]
    apply Selects.found (by simp)
    apply InTraits.nested (by simp) rfl
    exact .own (by simp) rfl
  obtain ⟨-, -, found, hfound, -, hagrees⟩ := method_lookup_nearest g "A" "m"
  rw [classKey_a.1, classKey_a.2] at hfound hagrees
  refine ⟨hshallow, hselects, ?_⟩
  rw [hagrees hshallow, (hfound _).1 hselects]

/-- The method of a trait that is used by a trait is passed over for that of the parent. -/
theorem parent_before_nested_trait :
    let g := ofScripts default 7 [usingTrait [usedTrait "\\U"]]
    g.Selects "m" [] "a" (some (declaredBy "u")) ∧
      g.findMethod "A" "m" = some (declaredBy "p") := by
  intro g
  have hg : g = usingGraph [] [("t", ["u"])] := ofScripts_nesting
  rw [hg]
  constructor
  · apply Selects.found (by simp)
    apply InTraits.nested (by simp) rfl
    apply InTraits.nested (by simp) rfl
    exact .own (by simp) rfl
  · rw [findMethod, classKey_a.1, classKey_a.2]
    rfl

end Programs

end PluginAudit.Php.CallGraph
