import PluginAudit.Package.HostConfig
import Mathlib.Data.List.Enum
import Mathlib.Data.List.Nodup

namespace PluginAudit.Package

/-- What may be the value of a setting. -/
inductive SettingValue : Value → Prop where
  | null : SettingValue .null
  | bool (b : Bool) : SettingValue (.bool b)
  | text (s : String) : SettingValue (.text s)
  | int (n : Int) : SettingValue (.int n)
  | float (x : Binary64) : SettingValue (.float x)
  | list {texts : List String} (distinct : texts.Nodup) : SettingValue (.texts texts)
  | map {entries : List (Value × Value)}
      (switches : ∀ e ∈ entries, e.2 = .null ∨ ∃ b, e.2 = .bool b) : SettingValue (.map entries)

/-- Texts and numbers can name a setting. -/
def CanName : Value → Prop
  | .text _ | .int _ | .float _ => True
  | _ => False

/-- The id of a setting in words: a number and its spelling are the same. -/
def idText? (setting : Value) : Option String :=
  (setting.get? "id").map Value.asText

def GlobalFormed : Value → Prop
  | .map values => Value.lookup "id" values = none ∧ ∀ e ∈ values, SettingValue e.2
  | _ => False

def SettingFormed : Value → Prop
  | .map fields =>
    (∃ id, Value.lookup "id" fields = some id ∧ CanName id) ∧
      ∀ e ∈ fields, e.1.asText ≠ "id" → SettingValue e.2
  | _ => False

def SettingsFormed : Value → Prop
  | .list settings => (∀ s ∈ settings, SettingFormed s) ∧ (settings.map idText?).Nodup
  | _ => False

def HostConfigFormed : Value → Prop
  | .map entries =>
    (∀ scope, Value.lookup "global" entries = some scope → GlobalFormed scope) ∧
      ∀ settings, Value.lookup "settings" entries = some settings → SettingsFormed settings
  | _ => False

theorem areDistinctTexts_texts (texts : List String) :
    areDistinctTexts (texts.map Value.text) = true ↔ texts.Nodup := by
  induction texts with
  | nil => simp [areDistinctTexts]
  | cons s rest ih =>
    rw [List.map_cons, areDistinctTexts, Bool.and_eq_true, ih, List.nodup_cons, List.any_map]
    apply and_congr_left'
    simpa using List.forall_mem_ne'

theorem eq_texts_of_areDistinctTexts {items : List Value} (h : areDistinctTexts items = true) :
    ∃ texts : List String, items = texts.map Value.text := by
  induction items with
  | nil => exact ⟨[], rfl⟩
  | cons v rest ih =>
    cases v with
    | text s =>
      rw [areDistinctTexts, Bool.and_eq_true] at h
      obtain ⟨texts, rfl⟩ := ih h.2
      exact ⟨s :: texts, rfl⟩
    | null | bool | int | float | list | map => cases h

theorem isSwitch_iff (v : Value) : isSwitch v = true ↔ v = .null ∨ ∃ b, v = .bool b := by
  cases v <;> simp [isSwitch]

theorem isSettingValue_iff (v : Value) : isSettingValue v = true ↔ SettingValue v := by
  constructor
  · intro h
    cases v with
    | null => exact .null
    | bool b => exact .bool b
    | int n => exact .int n
    | float x => exact .float x
    | text s => exact .text s
    | list items =>
      obtain ⟨texts, rfl⟩ := eq_texts_of_areDistinctTexts h
      exact .list ((areDistinctTexts_texts texts).1 h)
    | map entries =>
      apply SettingValue.map
      intro e he
      exact (isSwitch_iff e.2).1 (List.all_eq_true.1 h e he)
  · intro h
    cases h with
    | null | bool | text | int | float => rfl
    | list distinct => exact (areDistinctTexts_texts _).2 distinct
    | map switches =>
      apply List.all_eq_true.2
      intro e he
      exact (isSwitch_iff e.2).2 (switches e he)

instance : DecidablePred SettingValue :=
  fun v => decidable_of_iff (isSettingValue v = true) (isSettingValue_iff v)

instance : DecidablePred CanName
  | .text _ | .int _ | .float _ => isTrue trivial
  | .null | .bool _ | .list _ | .map _ => isFalse id

theorem settingId?_eq (id : Value) :
    settingId? id = if CanName id then some id.asText else none := by
  cases id <;> rfl

/-- The entries whose values are no values of settings. -/
def badValues (fault : String → HostConfigFault) (entries : List (Value × Value)) :
    List HostConfigFault :=
  (entries.filter fun e => ¬ SettingValue e.2).map fun e => fault e.1.asText

def globalOffences : Value → List HostConfigFault
  | .map values =>
    (if (Value.lookup "id" values).isSome then [.globalHasId] else []) ++
      badValues .badGlobal values
  | _ => [.globalNotObject]

/-- What is wrong with the id of a setting that comes after others. -/
def idOffences (earlier : List Value) (index : Nat) : Option Value → List HostConfigFault
  | none => [.idMissing index]
  | some id =>
    if ¬ CanName id then [.idNotName index]
    else if some id.asText ∈ earlier.map idText? then [.duplicateId id.asText]
    else []

def settingOffences (earlier : List Value) (index : Nat) : Value → List HostConfigFault
  | .map fields =>
    idOffences earlier index (Value.lookup "id" fields) ++
      badValues (.badSetting index) (fields.filter fun e => e.1.asText != "id")
  | _ => [.settingNotObject index]

def settingsOffences : Value → List HostConfigFault
  | .list settings =>
    settings.zipIdx.flatMap fun e => settingOffences (settings.take e.2) e.2 e.1
  | _ => [.settingsNotList]

/-- All that is wrong with a configuration: first its global values, then its settings in order. -/
def hostConfigOffences : Value → List HostConfigFault
  | .map entries =>
    (Value.lookup "global" entries).elim [] globalOffences ++
      (Value.lookup "settings" entries).elim [] settingsOffences
  | _ => [.notObject]

/-- Nothing is wrong, or the first thing that is. -/
def firstOf : List HostConfigFault → Except HostConfigFault Unit
  | [] => .ok ()
  | f :: _ => .error f

theorem firstOf_append (xs ys : List HostConfigFault) :
    firstOf (xs ++ ys) = firstOf xs >>= fun _ => firstOf ys := by
  cases xs <;> rfl

theorem firstOf_eq_ok_iff (xs : List HostConfigFault) : firstOf xs = .ok () ↔ xs = [] := by
  cases xs <;> simp [firstOf]

theorem firstOf_eq_error_iff (xs : List HostConfigFault) (f : HostConfigFault) :
    firstOf xs = .error f ↔ xs.head? = some f := by
  cases xs <;> simp [firstOf]

theorem firstOf_badValues (fault : String → HostConfigFault) (entries : List (Value × Value)) :
    firstOf (badValues fault entries) =
      match entries.find? fun e => !isSettingValue e.2 with
      | some e => .error (fault e.1.asText)
      | none => .ok () := by
  induction entries with
  | nil => rfl
  | cons e rest ih =>
    by_cases h : SettingValue e.2
    · have hvalue := (isSettingValue_iff e.2).2 h
      simpa [badValues, h, hvalue] using ih
    · have hvalue := mt (isSettingValue_iff e.2).1 h
      simp [badValues, h, hvalue, firstOf]

theorem checkGlobal_eq (scope : Option Value) :
    checkGlobal scope = firstOf (scope.elim [] globalOffences) := by
  cases scope with
  | none => rfl
  | some scope =>
    cases scope with
    | map values =>
      change _ = firstOf (_ ++ _)
      rw [firstOf_append, firstOf_badValues]
      unfold checkGlobal
      dsimp only
      split
      · rfl
      · rfl
    | null | bool | int | float | text | list => rfl

theorem firstOf_badFields (index : Nat) (fields : List (Value × Value)) :
    firstOf (badValues (.badSetting index) (fields.filter fun e => e.1.asText != "id")) =
      match fields.find? fun e => e.1.asText != "id" && !isSettingValue e.2 with
      | some e => .error (.badSetting index e.1.asText)
      | none => .ok () := by
  simp only [firstOf_badValues, List.find?_filter, Bool.decide_and, Bool.decide_eq_true]

/-- The ids of the settings that were checked before. -/
def Seen (seen : List String) (earlier : List Value) : Prop :=
  ∀ id, id ∈ seen ↔ some id ∈ earlier.map idText?

theorem checkSetting_eq {seen : List String} {earlier : List Value} (h : Seen seen earlier)
    (index : Nat) (s : Value) :
    checkSetting seen index s =
      firstOf (settingOffences earlier index s) >>= fun _ => .ok ((idText? s).getD "") := by
  cases s with
  | null | bool | int | float | text | list => rfl
  | map fields =>
    change _ = firstOf (_ ++ _) >>= _
    rw [firstOf_append, firstOf_badFields]
    unfold checkSetting idOffences
    have hid : idText? (.map fields) = (Value.lookup "id" fields).map Value.asText := rfl
    dsimp only
    rw [hid]
    cases Value.lookup "id" fields with
    | none => rfl
    | some id =>
      by_cases hname : CanName id
      · by_cases hseen : id.asText ∈ seen
        · have hearlier := (h _).1 hseen
          simp [settingId?_eq, hname, hseen, hearlier, firstOf, bind, Except.bind]
        · have hearlier := mt (h _).2 hseen
          dsimp only
          rw [settingId?_eq, if_pos hname, if_neg (not_not.2 hname), if_neg hearlier]
          dsimp only
          rw [if_neg (by simpa using hseen)]
          cases fields.find? fun e => e.1.asText != "id" && !isSettingValue e.2 with
          | some e => rfl
          | none => rfl
      · simp [settingId?_eq, hname, firstOf, bind, Except.bind]

theorem named_of_settingOffences {earlier : List Value} {index : Nat} {s : Value}
    (h : settingOffences earlier index s = []) : ∃ id, idText? s = some id := by
  cases s with
  | map fields =>
    obtain ⟨hid, -⟩ := List.append_eq_nil_iff.1 h
    cases hlookup : Value.lookup "id" fields with
    | none =>
      rw [hlookup] at hid
      cases hid
    | some id => exact ⟨id.asText, congrArg (Option.map Value.asText) hlookup⟩
  | null | bool | int | float | text | list => cases h

theorem Seen.cons {seen : List String} {earlier : List Value} {s : Value} {id : String}
    (h : Seen seen earlier) (hid : idText? s = some id) : Seen (id :: seen) (earlier ++ [s]) := by
  intro other
  rw [List.mem_cons, h other, List.map_append, List.mem_append, List.map_singleton,
    List.mem_singleton, hid, Option.some.injEq, or_comm]

theorem checkSettings_eq {seen : List String} {earlier : List Value} (h : Seen seen earlier)
    (rest : List Value) :
    checkSettings seen earlier.length rest =
      firstOf ((rest.zipIdx earlier.length).flatMap fun e =>
        settingOffences ((earlier ++ rest).take e.2) e.2 e.1) := by
  -- A setting that passes moves over to the earlier ones, and its id to those that are told.
  induction rest generalizing seen earlier with
  | nil => rfl
  | cons s rest ih =>
    rw [checkSettings, checkSetting_eq h, List.zipIdx_cons, List.flatMap_cons, firstOf_append,
      List.take_left]
    cases hs : settingOffences earlier earlier.length s with
    | cons f fs => rfl
    | nil =>
      obtain ⟨id, hid⟩ := named_of_settingOffences hs
      have later := ih (h.cons hid)
      rw [List.length_append, List.length_singleton, List.append_assoc,
        List.singleton_append] at later
      rw [hid]
      exact later

theorem seen_nil : Seen [] [] := by
  intro id
  simp

/-- A configuration is refused for the first thing that is wrong with it. -/
theorem checkHostConfig_eq (v : Value) : checkHostConfig v = firstOf (hostConfigOffences v) := by
  cases v with
  | map entries =>
    change _ = firstOf (_ ++ _)
    rw [checkHostConfig, checkGlobal_eq, firstOf_append]
    congr 1
    funext _
    cases Value.lookup "settings" entries with
    | none => rfl
    | some given =>
      cases given with
      | list settings => exact checkSettings_eq seen_nil settings
      | null | bool | int | float | text | map => rfl
  | null | bool | int | float | text | list => rfl

theorem badValues_eq_nil_iff (fault : String → HostConfigFault) (entries : List (Value × Value)) :
    badValues fault entries = [] ↔ ∀ e ∈ entries, SettingValue e.2 := by
  simp [badValues]

theorem globalOffences_eq_nil_iff (scope : Value) :
    globalOffences scope = [] ↔ GlobalFormed scope := by
  cases scope with
  | map values =>
    rw [globalOffences, List.append_eq_nil_iff, badValues_eq_nil_iff]
    simp [GlobalFormed]
  | null | bool | int | float | text | list => simp [globalOffences, GlobalFormed]

theorem idOffences_eq_nil_iff (earlier : List Value) (index : Nat) (id : Option Value) :
    idOffences earlier index id = [] ↔
      (∃ v, id = some v ∧ CanName v) ∧ id.map Value.asText ∉ earlier.map idText? := by
  cases id with
  | none => simp [idOffences]
  | some v =>
    by_cases hname : CanName v
    · simp [idOffences, hname]
    · simp [idOffences, hname]

theorem settingOffences_eq_nil_iff (earlier : List Value) (index : Nat) (s : Value) :
    settingOffences earlier index s = [] ↔ SettingFormed s ∧ idText? s ∉ earlier.map idText? := by
  cases s with
  | map fields =>
    change _ ↔ (_ ∧ _) ∧ (Value.lookup "id" fields).map Value.asText ∉ _
    rw [settingOffences, List.append_eq_nil_iff, badValues_eq_nil_iff, idOffences_eq_nil_iff,
      and_right_comm]
    simp
  | null | bool | int | float | text | list => simp [settingOffences, SettingFormed]

theorem nodup_iff_not_mem_take {α : Type} (xs : List α) :
    xs.Nodup ↔ ∀ i (h : i < xs.length), xs[i] ∉ xs.take i := by
  rw [List.Nodup, List.pairwise_iff_getElem]
  constructor
  · intro h i hi hmem
    obtain ⟨j, hj, heq⟩ := List.mem_take_iff_getElem.1 hmem
    exact h j i (by omega) hi (by omega) heq
  · intro h i j hi hj hlt heq
    exact h j hj (List.mem_take_iff_getElem.2 ⟨i, by omega, heq⟩)

theorem settingsOffences_eq_nil_iff (given : Value) :
    settingsOffences given = [] ↔ SettingsFormed given := by
  cases given with
  | list settings =>
    rw [settingsOffences, List.flatMap_eq_nil_iff, List.forall_mem_zipIdx', SettingsFormed,
      nodup_iff_not_mem_take, List.forall_mem_iff_getElem]
    simp only [settingOffences_eq_nil_iff, List.length_map, List.getElem_map, ← List.map_take]
    exact forall₂_and
  | null | bool | int | float | text | map => simp [settingsOffences, SettingsFormed]

theorem hostConfigOffences_eq_nil_iff (v : Value) :
    hostConfigOffences v = [] ↔ HostConfigFormed v := by
  cases v with
  | map entries =>
    rw [hostConfigOffences, List.append_eq_nil_iff, HostConfigFormed]
    simp only [← globalOffences_eq_nil_iff, ← settingsOffences_eq_nil_iff]
    apply and_congr
    · cases Value.lookup "global" entries <;> simp
    · cases Value.lookup "settings" entries <;> simp
  | null | bool | int | float | text | list => simp [hostConfigOffences, HostConfigFormed]

/-- The host configurations that are accepted are those in form. Any other is refused for the first
thing that is wrong with it. -/
theorem hostConfig_accepted_iff (v : Value) :
    (checkHostConfig v = .ok () ↔ HostConfigFormed v) ∧
      ∀ fault, checkHostConfig v = .error fault ↔ (hostConfigOffences v).head? = some fault := by
  rw [checkHostConfig_eq]
  constructor
  · rw [firstOf_eq_ok_iff, hostConfigOffences_eq_nil_iff]
  · exact firstOf_eq_error_iff (hostConfigOffences v)

/-- A number is the same id as its spelling. -/
example : checkHostConfig (.object [("settings", .list
    [.object [("id", .int 1)], .object [("id", .text "1")]])]) = .error (.duplicateId "1") := by
  decide +kernel

end PluginAudit.Package
