import PluginAudit.Policy.Build
import PluginAudit.Proofs.Mappings

namespace PluginAudit

theorem bind_eq_ok {α β : Type} {x : Except Fault α} {f : α → Except Fault β} {b : β}
    (h : x >>= f = .ok b) : ∃ a, x = .ok a ∧ f a = .ok b := by
  cases x with
  | error e => cases h
  | ok a => exact ⟨a, rfl, h⟩

theorem exists_bind_eq_ok {α β : Type} {x : Except Fault α} {f : α → Except Fault β} {a : α}
    (hx : x = .ok a) (hf : ∃ b, f a = .ok b) : ∃ b, (x >>= f) = .ok b := by
  rw [hx]
  exact hf

theorem ite_bind_eq_ok {α β : Type} {c : Bool} {x y : Except Fault α} {f : α → Except Fault β}
    {b : β} (h : (if c then x >>= f else y >>= f) = .ok b) :
    ∃ a, (if c then x else y) = .ok a ∧ f a = .ok b := by
  rw [← apply_ite (· >>= f)] at h
  exact bind_eq_ok h

namespace Text

theorem mem_distinct {s : String} {names : List String} : s ∈ distinct names ↔ s ∈ names := by
  have extend (seen : List String) : s ∈ names.foldl (fun seen s =>
      if seen.contains s then seen else seen ++ [s]) seen ↔ s ∈ seen ∨ s ∈ names := by
    induction names generalizing seen with
    | nil => simp
    | cons n rest ih =>
      rw [List.foldl_cons, ih]
      by_cases hn : n ∈ seen
      · simp only [List.contains_iff_mem, hn, if_true, List.mem_cons]
        grind
      · simp [hn, or_assoc]
  rw [distinct, extend]
  simp

end Text

namespace Policy

theorem mem_without {s : String} {names removed : List String} :
    s ∈ without names removed ↔ s ∈ names ∧ s ∉ removed := by
  simp [without]

theorem mem_union {s : String} {lists : List (List String)} :
    s ∈ union lists ↔ ∃ names ∈ lists, s ∈ names := by
  rw [union, Text.mem_distinct, List.mem_flatten]

/-- The names that a mapping lists in lower case under a key of one of its sections. -/
def listedIn (part : String) (data : List (Value × Value)) (key : String) :
    Except Fault (List String) := do
  lowerSet (Value.lookup key (← section? (Value.lookup part data)))

/-- The mapping lists `name` under a key of a section. -/
def Lists (part : String) (data : List (Value × Value)) (key name : String) : Prop :=
  ∃ names, listedIn part data key = .ok names ∧ name ∈ names

/-- The overrides of the mapping take `name` out of the lists of functions. -/
def Lifts (data : List (Value × Value)) (name : String) : Prop :=
  ∃ key ∈ ["functions", "tokens", "dangerous"], Lists "overrides" data key name

/-- The keys of the lists of forbidden functions. -/
def forbiddenKeys : List String := ["forbidden", "file_io", "stream", "curl"]

/-- What a list was read as; nothing if it could not be read. -/
def orNil {α : Type} : Except Fault (List α) → List α
  | .ok xs => xs
  | .error _ => []

theorem orNil_bind_eq_ok {α β : Type} {x : Except Fault (List α)} {f : List α → Except Fault β}
    {b : β} (h : x >>= f = .ok b) : f (orNil x) = .ok b := by
  obtain ⟨xs, rfl, h⟩ := bind_eq_ok h
  exact h

theorem eq_ok_of_mem_orNil {α : Type} {x : Except Fault (List α)} {a : α} (h : a ∈ orNil x) :
    x = .ok (orNil x) := by
  cases x with
  | error => cases h
  | ok => rfl

def namesIn (part : String) (data : List (Value × Value)) (key : String) : List String :=
  orNil (listedIn part data key)

def textsOf (v : Option Value) : List String :=
  orNil (textList v)

def overridesOf (data : List (Value × Value)) : List (Value × Value) :=
  orNil (section? (Value.lookup "overrides" data))

/-- The names that the overrides take out of the lists of functions. -/
def liftedNames (data : List (Value × Value)) : List String :=
  union [namesIn "overrides" data "functions", namesIn "overrides" data "tokens",
    namesIn "overrides" data "dangerous"]

/-- The classes whose methods are allowed, under both keys that have some. -/
def classEntries (data : List (Value × Value)) : List (Value × Value) :=
  orNil (section? (Value.lookup "allowed_class_methods" data)) ++
    orNil (section? (Value.lookup "classes" (overridesOf data)))

/-- How the parts of a policy come about. -/
structure Built (data : List (Value × Value)) (p : Policy) : Prop where
  dangerousFunctions : p.dangerousFunctions =
    without (namesIn "functions" data "dangerous") (liftedNames data)
  riskyFunctions : p.riskyFunctions =
    without (namesIn "functions" data "tokens") (liftedNames data)
  forbiddenFunctions : p.forbiddenFunctions =
    without (union [namesIn "functions" data "forbidden", namesIn "functions" data "file_io",
      namesIn "functions" data "stream", namesIn "functions" data "curl"]) (liftedNames data)
  unsupportedFunctions : p.unsupportedFunctions =
    without (union [p.dangerousFunctions, p.riskyFunctions, namesIn "functions" data "environment",
      namesIn "functions" data "obfuscators"]) (liftedNames data)
  obfuscators : p.obfuscators = namesIn "functions" data "obfuscators"
  callbackFunctions : p.callbackFunctions = namesIn "functions" data "callbacks"
  allowedNamespaces : p.allowedNamespaces =
    (textsOf (Value.lookup "namespaces" (overridesOf data))).map trimNamespace
  forbiddenNamespaces : p.forbiddenNamespaces =
    (Text.distinct ((textsOf (Value.lookup "namespaces" data)).map trimNamespace)).filter fun ns =>
      ns != "" && !(p.allowedNamespaces.map Text.lower).contains (Text.lower ns)
  wrappers : p.wrappers =
    without (Text.distinct ((textsOf (Value.lookup "wrappers" data)).map Text.lower))
      (namesIn "overrides" data "wrappers")
  forbiddenPackages : p.forbiddenPackages =
    without (orNil (lowerSet (Value.lookup "packages" data))) (namesIn "overrides" data "packages")
  magicMethods : p.magicMethods =
    without (orNil (lowerSet (Value.lookup "magic_methods" data)))
      (namesIn "overrides" data "magic_methods")
  allowedClassMethods : addClassMethods [] (classEntries data) = .ok p.allowedClassMethods
  limits : buildLimits (Value.lookup "scan" data) = .ok p.limits

theorem addClassMethods_append {entries more : List (Value × Value)} {table : Table (List String)} :
    addClassMethods table (entries ++ more) =
      addClassMethods table entries >>= (addClassMethods · more) := by
  induction entries generalizing table with
  | nil => rfl
  | cons e rest ih =>
    rw [List.cons_append, addClassMethods, addClassMethods]
    cases lowerSet (some e.2) with
    | error => rfl
    | ok names => exact ih

theorem built_of_build {data : List (Value × Value)} {p : Policy} (h : build data = .ok p) :
    Built data p := by
  unfold build at h
  -- The names that are lifted, and the lists of functions.
  iterate 11 replace h := orNil_bind_eq_ok h
  -- The namespaces that are allowed, those that are not, and the wrappers.
  iterate 4 replace h := orNil_bind_eq_ok h
  obtain ⟨wrappers, hwrappers, h⟩ := ite_bind_eq_ok h
  -- The callbacks, the packages and the magic methods.
  iterate 5 replace h := orNil_bind_eq_ok h
  -- The methods that are allowed of classes, the limits, and what is inherited.
  replace h := orNil_bind_eq_ok h
  obtain ⟨allowed, hallowed, h⟩ := bind_eq_ok h
  replace h := orNil_bind_eq_ok h
  replace h := orNil_bind_eq_ok h
  obtain ⟨classes, hclasses, h⟩ := bind_eq_ok h
  obtain ⟨limits, hlimits, h⟩ := bind_eq_ok h
  obtain ⟨inherit, -, h⟩ := bind_eq_ok h
  cases h
  refine ⟨rfl, rfl, rfl, rfl, rfl, rfl, rfl, rfl, ?_, rfl, rfl, ?_, hlimits⟩
  · split at hwrappers
    case isTrue hempty =>
      -- Without wrappers the overrides are not read, and take nothing away.
      cases hwrappers
      exact (congrArg (without · _) (List.isEmpty_iff.1 hempty)).symm
    case isFalse =>
      cases orNil_bind_eq_ok hwrappers
      rfl
  · rw [classEntries, addClassMethods_append, hallowed]
    exact hclasses

theorem lists_iff {part key name : String} {data : List (Value × Value)} {names : List String}
    (h : listedIn part data key = .ok names) : Lists part data key name ↔ name ∈ names := by
  constructor
  · rintro ⟨names', h', hname⟩
    cases h.symm.trans h'
    exact hname
  · exact fun hname => ⟨names, h, hname⟩

theorem mem_namesIn {part key name : String} {data : List (Value × Value)} :
    name ∈ namesIn part data key ↔ Lists part data key name := by
  constructor
  · exact fun h => ⟨_, eq_ok_of_mem_orNil h, h⟩
  · rintro ⟨names, h, hname⟩
    rwa [namesIn, h]

theorem mem_liftedNames {name : String} {data : List (Value × Value)} :
    name ∈ liftedNames data ↔ Lifts data name := by
  simp [liftedNames, mem_union, mem_namesIn, Lifts]

/-- A function is forbidden if it is listed under one of the keys and not lifted by an override. -/
theorem mem_forbiddenFunctions {data : List (Value × Value)} {p : Policy}
    (h : build data = .ok p) (name : String) :
    name ∈ p.forbiddenFunctions ↔
      (∃ key ∈ forbiddenKeys, Lists "functions" data key name) ∧ ¬ Lifts data name := by
  simp [(built_of_build h).forbiddenFunctions, mem_without, mem_union, mem_namesIn, mem_liftedNames,
    forbiddenKeys]

end Policy

end PluginAudit
