import PluginAudit.Proofs.Built
import PluginAudit.Proofs.LetterCase

namespace PluginAudit

namespace Text

theorem nodup_distinct (names : List String) : (distinct names).Nodup := by
  have extend (names seen : List String) (h : seen.Nodup) : (names.foldl (fun seen s =>
      if seen.contains s then seen else seen ++ [s]) seen).Nodup := by
    induction names generalizing seen with
    | nil => exact h
    | cons n rest ih =>
      rw [List.foldl_cons]
      apply ih
      split
      case isTrue => exact h
      case isFalse hn =>
        rw [← List.concat_eq_append]
        exact h.concat (by simpa using hn)
  exact extend names [] List.nodup_nil

/-- Trimming leaves nothing at the ends that is to be trimmed. -/
theorem ends_trim (p : Char → Bool) (s : String) :
    (∀ c ∈ (trim p s).toList.head?, p c = false) ∧
      ∀ c ∈ (trim p s).toList.getLast?, p c = false := by
  rw [trim, String.toList_ofList, dropEndWhile_eq]
  constructor
  · intro c hc
    obtain ⟨rest, hrest⟩ := List.head?_eq_some_iff.1 hc
    obtain ⟨tail, htail⟩ := List.rdropWhile_prefix p (s.toList.dropWhile p)
    have hhead := List.head?_dropWhile_not p s.toList
    rw [← htail, hrest] at hhead
    exact hhead
  · intro c hc
    obtain ⟨hne, rfl⟩ := List.mem_getLast?_eq_getLast hc
    exact Bool.eq_false_iff.2 (List.rdropWhile_last_not p _ hne)

theorem strip_strip (s : String) : strip (strip s) = strip s := by
  obtain ⟨hhead, hlast⟩ := ends_trim isBlank s
  rw [strip_eq_self_iff, Ne, Ne, Option.map_eq_some_iff, Option.map_eq_some_iff]
  refine ⟨?_, ?_⟩
  · rintro ⟨c, hc, hblank⟩
    exact Bool.false_ne_true ((hhead c hc).symm.trans hblank)
  · rintro ⟨c, hc, hblank⟩
    exact Bool.false_ne_true ((hlast c hc).symm.trans hblank)

/-- The text is in lower case, without white space around it. -/
def IsKey (s : String) : Prop :=
  lower s = s ∧ strip s = s

theorem isKey_lower_strip (s : String) : IsKey (lower (strip s)) :=
  ⟨lower_lower _, strip_lower_eq_self_iff.2 (strip_strip s)⟩

end Text

namespace Policy

variable {data : List (Value × Value)} {p : Policy} {name : String}

/-- The form of a class name in the table of allowed methods. -/
def classKey (cls : Value) : String :=
  Text.lower (trimNamespace cls.asText)

def AllKeys (names : List String) : Prop :=
  ∀ name ∈ names, Text.IsKey name

/-- The sets of names of functions, packages and magic methods. -/
def nameSets (p : Policy) : List (List String) :=
  [p.forbiddenFunctions, p.unsupportedFunctions, p.dangerousFunctions, p.riskyFunctions,
    p.obfuscators, p.callbackFunctions, p.forbiddenPackages, p.magicMethods]

/-- The extensions that count as PHP. -/
structure NormalExtensions (extensions : List String) : Prop where
  php : "php" ∈ extensions
  nodup : extensions.Nodup
  lower : ∀ e ∈ extensions, Text.lower e = e
  undotted : ∀ e ∈ extensions, ¬ ['.'] <+: e.toList

/-- The normal form of a policy that is built from a mapping, on which all its readers rely without
checking it again. -/
structure IsNormal (data : List (Value × Value)) (p : Policy) : Prop where
  lifted : ∀ name, Lifts data name → name ∉ p.forbiddenFunctions ∧ name ∉ p.unsupportedFunctions ∧
    name ∉ p.dangerousFunctions ∧ name ∉ p.riskyFunctions
  dangerous : p.dangerousFunctions ⊆ p.unsupportedFunctions
  risky : p.riskyFunctions ⊆ p.unsupportedFunctions
  keys : ∀ names ∈ p.nameSets, AllKeys names
  namespaces_nodup : p.forbiddenNamespaces.Nodup
  namespaces_ne : "" ∉ p.forbiddenNamespaces
  namespaces_trimmed : ∀ ns ∈ p.forbiddenNamespaces,
    ¬ ['\\'] <+: ns.toList ∧ ¬ ['\\'] <:+ ns.toList
  allowed : ∀ ns, ns ∈ p.allowedNamespaces ↔
    ∃ text ∈ textsOf (Value.lookup "namespaces" (overridesOf data)), trimNamespace text = ns
  namespaces_allowed : ∀ ns ∈ p.forbiddenNamespaces, ∀ allowed ∈ p.allowedNamespaces,
    Text.lower ns ≠ Text.lower allowed
  wrappers_nodup : p.wrappers.Nodup
  wrappers_lower : ∀ w ∈ p.wrappers, Text.lower w = w
  wrappers_lifted : ∀ w, Lists "overrides" data "wrappers" w → w ∉ p.wrappers
  packages_lifted : ∀ name, Lists "overrides" data "packages" name → name ∉ p.forbiddenPackages
  magicMethods_lifted :
    ∀ name, Lists "overrides" data "magic_methods" name → name ∉ p.magicMethods
  extensions : NormalExtensions p.limits.phpExtensions
  classes : ∀ key, p.allowedClassMethods.has key = true ↔
    ∃ e ∈ classEntries data, classKey e.1 = key
  classMethods : ∀ key methods, p.allowedClassMethods.find? key = some methods →
    ∀ name, name ∈ methods ↔ ∃ e ∈ classEntries data, classKey e.1 = key ∧
      name ∈ orNil (lowerSet (some e.2))

section Names

/-- What is read as a set of names is in the form in which names are looked up. -/
theorem allKeys_of_lowerSet {v : Option Value} {names : List String} (h : lowerSet v = .ok names) :
    AllKeys names := by
  obtain ⟨texts, -, h⟩ := bind_eq_ok h
  cases h
  intro name hname
  obtain ⟨s, -, rfl⟩ := List.mem_map.1 (Text.mem_distinct.1 hname)
  exact Text.isKey_lower_strip s

theorem allKeys_orNil (v : Option Value) : AllKeys (orNil (lowerSet v)) :=
  fun name hname => allKeys_of_lowerSet (eq_ok_of_mem_orNil hname) name hname

theorem allKeys_namesIn (part : String) (data : List (Value × Value)) (key : String) :
    AllKeys (namesIn part data key) := by
  intro name hname
  obtain ⟨names, hnames, hname⟩ := mem_namesIn.1 hname
  obtain ⟨entries, -, hnames⟩ := bind_eq_ok hnames
  exact allKeys_of_lowerSet hnames name hname

theorem AllKeys.without {names : List String} (h : AllKeys names) (removed : List String) :
    AllKeys (without names removed) :=
  fun name hname => h name (mem_without.1 hname).1

theorem AllKeys.union {lists : List (List String)} (h : ∀ names ∈ lists, AllKeys names) :
    AllKeys (union lists) := by
  intro name hname
  obtain ⟨names, hnames, hname⟩ := mem_union.1 hname
  exact h names hnames name hname

theorem Built.allKeys (built : Built data p) : ∀ names ∈ p.nameSets, AllKeys names := by
  have hlisted (key : String) : AllKeys (namesIn "functions" data key) :=
    allKeys_namesIn "functions" data key
  have hdangerous : AllKeys p.dangerousFunctions := by
    rw [built.dangerousFunctions]
    exact (hlisted _).without _
  have hrisky : AllKeys p.riskyFunctions := by
    rw [built.riskyFunctions]
    exact (hlisted _).without _
  have hforbidden : AllKeys p.forbiddenFunctions := by
    rw [built.forbiddenFunctions]
    exact (AllKeys.union (by simp [hlisted])).without _
  have hunsupported : AllKeys p.unsupportedFunctions := by
    rw [built.unsupportedFunctions]
    exact (AllKeys.union (by simp [hlisted, hdangerous, hrisky])).without _
  have hpackages : AllKeys p.forbiddenPackages := by
    rw [built.forbiddenPackages]
    exact (allKeys_orNil _).without _
  have hmagic : AllKeys p.magicMethods := by
    rw [built.magicMethods]
    exact (allKeys_orNil _).without _
  simp [nameSets, hforbidden, hunsupported, hdangerous, hrisky, built.obfuscators,
    built.callbackFunctions, hlisted, hpackages, hmagic]

/-- What the overrides name is in no list of functions that they apply to. -/
theorem Built.not_mem_of_lifts (built : Built data p) (h : Lifts data name) :
    name ∉ p.forbiddenFunctions ∧ name ∉ p.unsupportedFunctions ∧
      name ∉ p.dangerousFunctions ∧ name ∉ p.riskyFunctions := by
  rw [← mem_liftedNames] at h
  rw [built.forbiddenFunctions, built.unsupportedFunctions, built.dangerousFunctions,
    built.riskyFunctions]
  simp [mem_without, h]

theorem Built.unsupported_of_listed (built : Built data p) {names : List String}
    (hlisted : names ∈ [p.dangerousFunctions, p.riskyFunctions]) :
    names ⊆ p.unsupportedFunctions := by
  intro name hname
  rw [built.unsupportedFunctions, mem_without, mem_union, mem_liftedNames]
  refine ⟨⟨names, List.mem_append_left _ hlisted, hname⟩, fun h => ?_⟩
  -- A name that is lifted is in neither list.
  obtain ⟨-, -, hdangerous, hrisky⟩ := built.not_mem_of_lifts h
  simp only [List.mem_cons, List.not_mem_nil, or_false] at hlisted
  obtain rfl | rfl := hlisted
  exacts [hdangerous hname, hrisky hname]

end Names

section Namespaces

theorem not_prefix_trimBackslashes (s : String) : ¬ ['\\'] <+: (Text.trimBackslashes s).toList := by
  rintro ⟨tail, htail⟩
  have hhead := (Text.ends_trim (· == '\\') s).1 '\\'
  rw [Text.trimBackslashes] at htail
  simp [← htail] at hhead

theorem not_suffix_trimBackslashes (s : String) : ¬ ['\\'] <:+ (Text.trimBackslashes s).toList := by
  rintro ⟨front, hfront⟩
  have hlast := (Text.ends_trim (· == '\\') s).2 '\\'
  rw [Text.trimBackslashes] at hfront
  simp [← hfront] at hlast

theorem Built.mem_forbiddenNamespaces (built : Built data p) {ns : String} :
    ns ∈ p.forbiddenNamespaces ↔
      (∃ text ∈ textsOf (Value.lookup "namespaces" data), trimNamespace text = ns) ∧ ns ≠ "" ∧
        ∀ allowed ∈ p.allowedNamespaces, Text.lower ns ≠ Text.lower allowed := by
  rw [built.forbiddenNamespaces, List.mem_filter, Text.mem_distinct, List.mem_map]
  simp only [Bool.and_eq_true, bne_iff_ne, Bool.not_eq_true', List.contains_eq_mem,
    decide_eq_false_iff_not, List.mem_map, not_exists, not_and, ne_comm (a := Text.lower ns)]

end Namespaces

section Extensions

theorem lower_extensionKey (text : String) : Text.lower (extensionKey text) = extensionKey text :=
  Text.lower_of_isLowered fun _ hc =>
    Text.isLowered_of_mem_lower ((Text.trimLeft_sublist _ _).subset hc)

theorem undotted_extensionKey (text : String) : ¬ ['.'] <+: (extensionKey text).toList := by
  rw [extensionKey, Text.trimLeft, String.toList_ofList]
  exact Text.not_prefix_dropWhile rfl _

theorem extensionKey_default : ∀ e ∈ "php" :: defaultExtensions, extensionKey e = e := by
  simp only [defaultExtensions, List.forall_mem_cons]
  exact ⟨by cbv, by cbv, by cbv, by cbv, List.forall_mem_nil _⟩

theorem exists_extensionKey {texts : List String} {e : String}
    (h : e ∈ if (texts.map extensionKey).isEmpty then defaultExtensions
      else texts.map extensionKey) : ∃ text, extensionKey text = e := by
  split at h
  case isTrue => exact ⟨e, extensionKey_default e (List.mem_cons_of_mem _ h)⟩
  case isFalse =>
    obtain ⟨text, -, htext⟩ := List.mem_map.1 h
    exact ⟨text, htext⟩

/-- With PHP's own in front, if it is not listed, extensions in their form are normal. -/
theorem normalExtensions {listed : List String} (h : ∀ e ∈ listed, ∃ text, extensionKey text = e) :
    NormalExtensions
      (Text.distinct (if listed.contains "php" then listed else "php" :: listed)) := by
  have hphp : extensionKey "php" = "php" := extensionKey_default _ List.mem_cons_self
  have hall : "php" ∈ (if listed.contains "php" then listed else "php" :: listed) ∧
      ∀ e ∈ (if listed.contains "php" then listed else "php" :: listed),
        ∃ text, extensionKey text = e := by
    split
    case isTrue hlisted => exact ⟨List.contains_iff_mem.1 hlisted, h⟩
    case isFalse => exact ⟨List.mem_cons_self, List.forall_mem_cons.2 ⟨⟨_, hphp⟩, h⟩⟩
  refine ⟨Text.mem_distinct.2 hall.1, Text.nodup_distinct _, ?_, ?_⟩
  all_goals
    intro e he
    obtain ⟨text, rfl⟩ := hall.2 e (Text.mem_distinct.1 he)
  · exact lower_extensionKey text
  · exact undotted_extensionKey text

theorem normalExtensions_of_buildLimits {v : Option Value} {limits : ScanLimits}
    (h : buildLimits v = .ok limits) : NormalExtensions limits.phpExtensions := by
  obtain ⟨scan, -, h⟩ := bind_eq_ok h
  replace h := orNil_bind_eq_ok h
  obtain ⟨sizeEntries, -, h⟩ := bind_eq_ok h
  obtain ⟨scanSize, -, h⟩ := bind_eq_ok h
  -- The limit is read or left as it is; what follows does not depend on it.
  cases hmax : Value.lookup "max_web_file_bytes" scan <;> rw [hmax] at h
  all_goals
    obtain ⟨maxWeb, -, h⟩ := bind_eq_ok h
    obtain ⟨ignore, -, h⟩ := bind_eq_ok h
    cases h
    exact normalExtensions fun _ => exists_extensionKey

end Extensions

section Classes

variable {entries : List (Value × Value)} {table result : Table (List String)} {key : String}

theorem addClassMethods_cons (table : Table (List String)) (e : Value × Value)
    (rest : List (Value × Value)) :
    addClassMethods table (e :: rest) = lowerSet (some e.2) >>= fun names =>
      addClassMethods (table.put (classKey e.1)
        (union [(table.find? (classKey e.1)).getD [], names])) rest :=
  rfl

theorem find?_addClassMethods (h : addClassMethods table entries = .ok result) (key : String) :
    (result.has key = true ↔ table.has key = true ∨ ∃ e ∈ entries, classKey e.1 = key) ∧
      ∀ name, name ∈ (result.find? key).getD [] ↔ name ∈ (table.find? key).getD [] ∨
        ∃ e ∈ entries, classKey e.1 = key ∧ name ∈ orNil (lowerSet (some e.2)) := by
  induction entries generalizing table with
  | nil =>
    cases h
    simp
  | cons e rest ih =>
    rw [addClassMethods_cons] at h
    obtain ⟨hhas, hmethods⟩ := ih (orNil_bind_eq_ok h)
    by_cases hkey : classKey e.1 = key
    · subst hkey
      simp only [Table.has, Table.find?_put_self] at hhas hmethods
      simp [hhas, hmethods, Table.has, mem_union, or_assoc]
    · simp only [Table.has, Table.find?_put_of_ne _ _ _ _ hkey] at hhas hmethods
      simp [hhas, hmethods, Table.has, hkey]

end Classes

/-- Whatever a mapping holds, the policy that is built from it is in normal form. -/
theorem isNormal_of_build (h : build data = .ok p) : IsNormal data p := by
  have built := built_of_build h
  have hclasses := find?_addClassMethods built.allowedClassMethods
  exact {
    lifted := fun _ => built.not_mem_of_lifts
    dangerous := built.unsupported_of_listed (by simp)
    risky := built.unsupported_of_listed (by simp)
    keys := built.allKeys
    namespaces_nodup := by
      rw [built.forbiddenNamespaces]
      exact (Text.nodup_distinct _).filter _
    namespaces_ne := fun hempty => (built.mem_forbiddenNamespaces.1 hempty).2.1 rfl
    namespaces_trimmed := by
      intro ns hns
      obtain ⟨⟨text, -, rfl⟩, -⟩ := built.mem_forbiddenNamespaces.1 hns
      exact ⟨not_prefix_trimBackslashes _, not_suffix_trimBackslashes _⟩
    allowed := fun ns => by rw [built.allowedNamespaces, List.mem_map]
    namespaces_allowed := fun _ hns => (built.mem_forbiddenNamespaces.1 hns).2.2
    wrappers_nodup := by
      rw [built.wrappers]
      exact (Text.nodup_distinct _).filter _
    wrappers_lower := by
      intro w hw
      rw [built.wrappers, mem_without, Text.mem_distinct, List.mem_map] at hw
      obtain ⟨⟨text, -, rfl⟩, -⟩ := hw
      exact Text.lower_lower text
    wrappers_lifted := by
      intro w hlifted hw
      rw [built.wrappers, mem_without, mem_namesIn] at hw
      exact hw.2 hlifted
    packages_lifted := by
      intro name hlifted hname
      rw [built.forbiddenPackages, mem_without, mem_namesIn] at hname
      exact hname.2 hlifted
    magicMethods_lifted := by
      intro name hlifted hname
      rw [built.magicMethods, mem_without, mem_namesIn] at hname
      exact hname.2 hlifted
    extensions := normalExtensions_of_buildLimits built.limits
    classes := fun key => by simpa [Table.has] using (hclasses key).1
    classMethods := fun key methods hmethods name => by
      simpa [hmethods] using (hclasses key).2 name }

/-- A mapping that lifts one of its functions and its wrapper, each in other letters. -/
def liftingMapping : List (Value × Value) :=
  [(.text "functions", .map [(.text "forbidden", .texts [" Exec ", "eval"])]),
    (.text "overrides",
      .map [(.text "functions", .text "EXEC"), (.text "wrappers", .text "phar://")]),
    (.text "namespaces", .text "\\App\\"),
    (.text "wrappers", .text "PHAR://"),
    (.text "allowed_class_methods", .map [(.text "\\PDO", .text "Query")])]

theorem exists_build_liftingMapping : ∃ p, build liftingMapping = .ok p := by
  unfold build
  iterate 15 refine exists_bind_eq_ok rfl ?_
  -- There is a wrapper, so the overrides are asked for theirs.
  rw [if_neg (by decide)]
  iterate 14 refine exists_bind_eq_ok rfl ?_
  exact ⟨_, rfl⟩

theorem lifts_liftingMapping : Lifts liftingMapping "exec" :=
  ⟨"functions", List.mem_cons_self, [Text.lower (Text.strip "EXEC")], rfl,
    List.mem_singleton.2 (by cbv)⟩

theorem liftingMapping_normal :
    ∃ p, build liftingMapping = .ok p ∧ IsNormal liftingMapping p ∧
      "exec" ∉ p.forbiddenFunctions := by
  obtain ⟨p, hp⟩ := exists_build_liftingMapping
  have normal := isNormal_of_build hp
  exact ⟨p, hp, normal, (normal.lifted _ lifts_liftingMapping).1⟩

end Policy

end PluginAudit
