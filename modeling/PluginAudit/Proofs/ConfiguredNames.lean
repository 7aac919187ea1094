import Mathlib
import PluginAudit.Proofs.Built
import PluginAudit.Proofs.LetterCase

namespace PluginAudit.Policy

/-- The lists of functions that a policy is asked about. -/
inductive NameList where
  | forbidden
  | unsupported
  | obfuscators
  | callbacks
  deriving DecidableEq, Repr

namespace NameList

/-- The keys of the section `functions` whose names go into the list. -/
def keys : NameList → List String
  | forbidden => forbiddenKeys
  | unsupported => ["dangerous", "tokens", "environment", "obfuscators"]
  | obfuscators => ["obfuscators"]
  | callbacks => ["callbacks"]

/-- Whether overrides take names out of the list. -/
def isLiftable : NameList → Bool
  | forbidden | unsupported => true
  | obfuscators | callbacks => false

def names (p : Policy) : NameList → List String
  | forbidden => p.forbiddenFunctions
  | unsupported => p.unsupportedFunctions
  | obfuscators => p.obfuscators
  | callbacks => p.callbackFunctions

/-- What the policy answers about a name. -/
def recognises (p : Policy) : NameList → String → Bool
  | forbidden => p.isForbiddenFunction
  | unsupported => p.isUnsupportedFunction
  | obfuscators => p.isObfuscator
  | callbacks => p.isCallbackFunction

/-- The mapping lists a name, in lower case, for the list and does not lift it. -/
def Takes (l : NameList) (data : List (Value × Value)) (name : String) : Prop :=
  (∃ key ∈ l.keys, Lists "functions" data key name) ∧ (l.isLiftable = true → ¬ Lifts data name)

end NameList

variable {data : List (Value × Value)} {p : Policy}

theorem mem_names (h : build data = .ok p) (l : NameList) (name : String) :
    name ∈ l.names p ↔ l.Takes data name := by
  have built := built_of_build h
  cases l with
  | forbidden =>
    simpa [NameList.Takes, NameList.isLiftable, NameList.keys, NameList.names] using
      mem_forbiddenFunctions h name
  | unsupported =>
    simp [NameList.Takes, NameList.isLiftable, NameList.keys, NameList.names,
      built.unsupportedFunctions, built.dangerousFunctions, built.riskyFunctions, mem_without,
      mem_union, mem_liftedNames, mem_namesIn]
    tauto
  | obfuscators =>
    simp [NameList.Takes, NameList.isLiftable, NameList.keys, NameList.names, built.obfuscators,
      mem_namesIn]
  | callbacks =>
    simp [NameList.Takes, NameList.isLiftable, NameList.keys, NameList.names,
      built.callbackFunctions, mem_namesIn]

theorem recognises_iff (h : build data = .ok p) (l : NameList) (name : String) :
    l.recognises p name = true ↔ l.Takes data (functionKey name) := by
  rw [← mem_names h l]
  cases l <;> exact List.contains_iff_mem

/-- The text is among those that the section `functions` of the mapping has under a key. -/
def Writes (data : List (Value × Value)) (key text : String) : Prop :=
  ∃ entries names, section? (Value.lookup "functions" data) = .ok entries ∧
    textList (Value.lookup key entries) = .ok names ∧ text ∈ names

theorem Writes.lists {key text : String} (h : Writes data key text) :
    Lists "functions" data key (Text.lower (Text.strip text)) := by
  obtain ⟨entries, names, hentries, hnames, hmem⟩ := h
  refine ⟨Text.distinct (names.map fun s => Text.lower (Text.strip s)), ?_, ?_⟩
  · simp [listedIn, lowerSet, hentries, hnames, bind, Except.bind, pure, Except.pure]
  · exact Text.mem_distinct.2 (List.mem_map_of_mem hmem)

/-- A backslash is the first character that is no blank. -/
def Rooted (text : String) : Prop :=
  Text.startsWith (Text.strip text) "\\" = true

theorem functionKey_of_not_rooted {text : String} (h : ¬ Rooted text) :
    functionKey text = Text.lower (Text.strip text) := by
  have hfront : ¬ ['\\'] <+: (Text.strip text).toList := by
    simpa [Rooted, Text.startsWith] using h
  rw [functionKey, Text.trimLeft_of_not_prefix hfront]

theorem Rooted.strip_ne_empty {text : String} (h : Rooted text) : Text.strip text ≠ "" := by
  intro hempty
  rw [Rooted, hempty] at h
  cases h

/-- What is asked for never has the key under which a name with a backslash in front is listed. -/
theorem functionKey_ne_of_rooted {text : String} (h : Rooted text) (name : String) :
    functionKey name ≠ Text.lower (Text.strip text) := by
  intro heq
  have hcaseless : Text.IsCaseless '\\' := by decide
  have hlisted : ['\\'] <+: (Text.strip text).toList := by
    simpa [Rooted, Text.startsWith] using h
  rw [← Text.singleton_prefix_lower_iff hcaseless, ← heq, functionKey,
    Text.singleton_prefix_lower_iff hcaseless, Text.trimLeft, String.toList_ofList] at hlisted
  -- The key is trimmed before it is lowered, and lowering makes no backslash.
  exact Text.not_prefix_dropWhile rfl _ hlisted

/-- A function that the mapping lists, and does not lift, is recognised by the name as it is written
there, unless that starts with a backslash; then it is recognised only if some list has it without. -/
theorem written_name_recognised_iff (h : build data = .ok p) (l : NameList) {key text : String}
    (hkey : key ∈ l.keys) (written : Writes data key text)
    (kept : l.isLiftable = true → ¬ Lifts data (Text.lower (Text.strip text))) :
    l.recognises p text = true ↔ ¬ Rooted text ∨ l.Takes data (functionKey text) := by
  rw [recognises_iff h]
  constructor
  · exact .inr
  · rintro (hroot | htakes)
    · rw [functionKey_of_not_rooted hroot]
      exact ⟨⟨key, hkey, written.lists⟩, kept⟩
    · exact htakes

/-- The mapping that lists one forbidden function. -/
def forbidding (name : String) : List (Value × Value) :=
  [(.text "functions", .map [(.text "forbidden", .texts [name])])]

theorem textList_forbidding {name : String} (h : Text.strip name ≠ "") :
    textList (some (.texts [name])) = .ok [name] := by
  simp [textList, Value.texts, textList.ofItems, Value.asText, h]

theorem writes_forbidding {name : String} (h : Text.strip name ≠ "") :
    Writes (forbidding name) "forbidden" name :=
  ⟨_, [name], rfl, textList_forbidding h, List.mem_singleton_self name⟩

theorem listedIn_forbidding {name : String} (h : Text.strip name ≠ "") :
    listedIn "functions" (forbidding name) "forbidden" = .ok [Text.lower (Text.strip name)] := by
  have hlisted : listedIn "functions" (forbidding name) "forbidden" =
      lowerSet (some (.texts [name])) := rfl
  rw [hlisted, lowerSet, textList_forbidding h]
  rfl

theorem not_lifts_forbidding (name other : String) : ¬ Lifts (forbidding name) other := by
  rintro ⟨key, -, names, hnames, hmem⟩
  have hempty : listedIn "overrides" (forbidding name) key = .ok [] := rfl
  cases hempty.symm.trans hnames
  cases hmem

theorem takes_forbidding_iff {name other : String} (h : Text.strip name ≠ "") :
    NameList.forbidden.Takes (forbidding name) other ↔ other = Text.lower (Text.strip name) := by
  have hrest : ∀ key ∈ ["file_io", "stream", "curl"],
      listedIn "functions" (forbidding name) key = .ok [] := by
    intro key hkey
    fin_cases hkey <;> rfl
  constructor
  · rintro ⟨⟨key, hkey, hlists⟩, -⟩
    obtain rfl | hkey := List.mem_cons.1 hkey
    · simpa using (lists_iff (listedIn_forbidding h)).1 hlists
    · cases (lists_iff (hrest key hkey)).1 hlists
  · rintro rfl
    exact ⟨⟨_, List.mem_cons_self, (writes_forbidding h).lists⟩,
      fun _ => not_lifts_forbidding _ _⟩

theorem exists_build_forbidding {name : String} (h : Text.strip name ≠ "") :
    ∃ p, build (forbidding name) = .ok p := by
  obtain ⟨names, hnames⟩ :
      ∃ names, listedIn "functions" (forbidding name) "forbidden" = .ok names :=
    ⟨_, listedIn_forbidding h⟩
  unfold build
  iterate 5 refine exists_bind_eq_ok rfl ?_
  refine exists_bind_eq_ok hnames ?_
  iterate 9 refine exists_bind_eq_ok rfl ?_
  -- There are no wrappers, so nothing is asked of the overrides.
  rw [if_pos (by decide)]
  iterate 13 refine exists_bind_eq_ok rfl ?_
  exact ⟨_, rfl⟩

/-- A forbidden function is recognised by its name in the letters of the mapping. -/
theorem eval_recognised :
    ∃ p, build (forbidding " Eval ") = .ok p ∧ "forbidden" ∈ NameList.forbidden.keys ∧
      Writes (forbidding " Eval ") "forbidden" " Eval " ∧
      ¬ Lifts (forbidding " Eval ") (Text.lower (Text.strip " Eval ")) ∧
      NameList.forbidden.recognises p " Eval " = true := by
  have hstrip : Text.strip " Eval " = "Eval" := by cbv
  have hne : Text.strip " Eval " ≠ "" := by
    rw [hstrip]
    decide
  have hroot : ¬ Rooted " Eval " := by
    rw [Rooted, hstrip]
    decide
  have listed : "forbidden" ∈ NameList.forbidden.keys := List.mem_cons_self
  have kept := not_lifts_forbidding " Eval " (Text.lower (Text.strip " Eval "))
  obtain ⟨p, hp⟩ := exists_build_forbidding hne
  exact ⟨p, hp, listed, writes_forbidding hne, kept,
    (written_name_recognised_iff hp .forbidden listed (writes_forbidding hne)
      fun _ => kept).2 (.inl hroot)⟩

/-- A forbidden function that is listed with a backslash in front and nowhere else is never
recognised, however it is called. -/
theorem isForbiddenFunction_of_rooted {name : String} (h : Rooted name)
    (hp : build (forbidding name) = .ok p) (other : String) : p.isForbiddenFunction other = false := by
  rw [Bool.eq_false_iff]
  intro hother
  have htakes := (recognises_iff hp .forbidden other).1 hother
  rw [takes_forbidding_iff h.strip_ne_empty] at htakes
  exact functionKey_ne_of_rooted h other htakes

/-- A name that is listed with a backslash in front goes unrecognised with it and without. -/
theorem rooted_name_unrecognised :
    ∃ p, build (forbidding "\\system") = .ok p ∧
      Writes (forbidding "\\system") "forbidden" "\\system" ∧
      ¬ Lifts (forbidding "\\system") (Text.lower (Text.strip "\\system")) ∧
      p.isForbiddenFunction "\\system" = false ∧ p.isForbiddenFunction "system" = false := by
  have hroot : Rooted "\\system" := by
    have hstrip : Text.strip "\\system" = "\\system" := by cbv
    rw [Rooted, hstrip]
    decide
  obtain ⟨p, hp⟩ := exists_build_forbidding hroot.strip_ne_empty
  exact ⟨p, hp, writes_forbidding hroot.strip_ne_empty, not_lifts_forbidding _ _,
    isForbiddenFunction_of_rooted hroot hp _, isForbiddenFunction_of_rooted hroot hp _⟩

end PluginAudit.Policy
