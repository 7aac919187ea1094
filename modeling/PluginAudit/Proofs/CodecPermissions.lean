import PluginAudit.Package.Permissions.Reader
import Mathlib.Data.List.Basic

namespace PluginAudit

namespace Checked

variable {α β : Type}

theorem map_eq_valid {c : Checked α} {f : α → β} {b : β} (h : c.map f = .valid b) :
    ∃ a, c = .valid a ∧ f a = b := by
  cases c with
  | valid a =>
    cases h
    exact ⟨a, rfl, rfl⟩
  | invalid is => cases h

theorem seq_eq_valid {f : Checked (α → β)} {x : Checked α} {b : β} (h : (f <*> x) = .valid b) :
    ∃ g a, f = .valid g ∧ x = .valid a ∧ g a = b := by
  cases f with
  | valid g =>
    cases x with
    | valid a =>
      cases h
      exact ⟨g, a, rfl, rfl, rfl⟩
    | invalid is => cases h
  | invalid is => cases x <;> cases h

theorem withIssues_eq_valid {c : Checked α} {more : List Issue} {a : α}
    (h : c.withIssues more = .valid a) : c = .valid a := by
  cases c with
  | valid b =>
    rw [withIssues] at h
    split at h
    · exact h
    · cases h
  | invalid is => cases h

theorem ensure_eq_valid {c : Checked α} {path : String} {fault? : α → Option String} {a : α}
    (h : c.ensure path fault? = .valid a) : c = .valid a ∧ fault? a = none := by
  cases c with
  | valid b =>
    unfold ensure andThen at h
    dsimp only at h
    split at h
    case h_1 => cases h
    case h_2 hnone =>
      cases h
      exact ⟨rfl, hnone⟩
  | invalid is => cases h

end Checked

namespace Check

variable {α : Type} {path : String}

theorem text_eq_valid {v : Value} {s : String} (h : text path v = .valid s) : v = .text s := by
  cases v with
  | text t =>
    cases h
    rfl
  | null | bool | int | float | list | map => cases h

theorem items_cons_eq_valid {c : Check α} {index : Nat} {v : Value} {rest : List Value}
    {xs : List α} (h : items c path index (v :: rest) = .valid xs) :
    ∃ place x ys, c place v = .valid x ∧ items c path (index + 1) rest = .valid ys ∧
      xs = x :: ys := by
  obtain ⟨_, ys, hcons, hrest, rfl⟩ := Checked.seq_eq_valid h
  obtain ⟨x, hx, rfl⟩ := Checked.map_eq_valid hcons
  exact ⟨_, x, ys, hx, hrest, rfl⟩

theorem valid_of_mem_items {c : Check α} {index : Nat} {vs : List Value} {xs : List α}
    (h : items c path index vs = .valid xs) {v : Value} (hv : v ∈ vs) :
    ∃ place x, c place v = .valid x := by
  induction vs generalizing index xs with
  | nil => cases hv
  | cons w rest ih =>
    obtain ⟨place, x, ys, hx, hrest, -⟩ := items_cons_eq_valid h
    rcases List.mem_cons.1 hv with rfl | hv
    · exact ⟨place, x, hx⟩
    · exact ih hrest hv

theorem items_text_eq_valid {index : Nat} {vs : List Value} {xs : List String}
    (h : items text path index vs = .valid xs) : vs = xs.map .text := by
  induction vs generalizing index xs with
  | nil =>
    cases h
    rfl
  | cons v rest ih =>
    obtain ⟨place, x, ys, hx, hrest, rfl⟩ := items_cons_eq_valid h
    rw [text_eq_valid hx, ih hrest, List.map_cons]

theorem list_eq_valid {c : Check α} {v : Value} {xs : List α} (h : list c path v = .valid xs) :
    ∃ vs, v = .list vs ∧ items c path 0 vs = .valid xs := by
  cases v with
  | list vs => exact ⟨vs, rfl, h⟩
  | null | bool | int | float | text | map => cases h

theorem texts_eq_valid {v : Value} {xs : List String} (h : list text path v = .valid xs) :
    v = .texts xs := by
  obtain ⟨vs, rfl, hitems⟩ := list_eq_valid h
  rw [items_text_eq_valid hitems, Value.texts]

/-- A field that may be missing is, or is null, or its value is valid. -/
theorem optional_eq_valid {c : Check α} {f : Field} {x : Option α}
    (h : optional c f = .valid x) :
    (x = none ∧ (f.value = none ∨ f.value = some .null)) ∨
      ∃ v a, f.value = some v ∧ v ≠ .null ∧ x = some a ∧ c f.path v = .valid a := by
  unfold optional at h
  split at h
  case h_1 hnone =>
    cases h
    exact .inl ⟨rfl, .inl hnone⟩
  case h_2 hnull =>
    cases h
    exact .inl ⟨rfl, .inr hnull⟩
  case h_3 v hnull hvalue =>
    obtain ⟨a, ha, rfl⟩ := Checked.map_eq_valid h
    exact .inr ⟨v, a, hvalue, hnull, rfl, ha⟩

theorem fields_eq_valid {known : List String} {entries : List (Value × Value)}
    {read : (String → Field) → Checked α} {a : α} (h : fields known path entries read = .valid a) :
    read (fun key => ⟨path ++ "." ++ key, Value.lookup key entries⟩) = .valid a :=
  Checked.withIssues_eq_valid h

theorem object_eq_valid {name : String} {known : List String} {read : (String → Field) → Checked α}
    {v : Value} {a : α} (h : object name known read path v = .valid a) :
    ∃ entries, v = .map entries ∧
      read (fun key => ⟨path ++ "." ++ key, Value.lookup key entries⟩) = .valid a := by
  cases v with
  | map entries => exact ⟨entries, rfl, fields_eq_valid h⟩
  | null | bool | int | float | text | list => cases h

end Check

namespace Package

open Check

/-- A lower-case letter, a digit or an underscore. -/
def IsNameChar (c : Char) : Prop :=
  ('a' ≤ c ∧ c ≤ 'z') ∨ ('0' ≤ c ∧ c ≤ '9') ∨ c = '_'

/-- A word of lower-case letters, digits and underscores. -/
def IsPlainName (s : String) : Prop :=
  s ≠ "" ∧ ∀ c ∈ s.toList, IsNameChar c

theorem isNameChar_iff (c : Char) :
    (c.isLower || c.isDigit || c == '_') = true ↔ IsNameChar c := by
  change ((decide ('a' ≤ c) && decide (c ≤ 'z')) || (decide ('0' ≤ c) && decide (c ≤ '9')) ||
    c == '_') = true ↔ _
  simp [IsNameChar, or_assoc]

theorem isPlainName_ofList (cs : List Char) :
    IsPlainName (String.ofList cs) ↔
      (!cs.isEmpty && cs.all fun c => c.isLower || c.isDigit || c == '_') = true := by
  rw [IsPlainName, Bool.and_eq_true, List.all_eq_true, String.toList_ofList]
  simp only [isNameChar_iff]
  simp

/-- A line feed behind a name passes for a part of it. -/
theorem plain_of_isMethodName {s : String} (h : isMethodName s = true) :
    ∃ name, IsPlainName name ∧ (s = name ∨ s = name ++ "\n") := by
  unfold isMethodName at h
  dsimp only at h
  split at h
  case isTrue hlast =>
    refine ⟨_, (isPlainName_ofList _).2 h, .inr ?_⟩
    have hfeed : '\n' ∈ s.toList.getLast? := by simpa using hlast
    apply String.toList_injective
    rw [String.toList_append, String.toList_ofList]
    exact (List.dropLast_append_getLast? _ hfeed).symm
  case isFalse => exact ⟨s, by simpa using (isPlainName_ofList _).2 h, .inl rfl⟩

/-- A field that is there and not null. -/
def Given (rule : List (Value × Value)) (key : String) : Prop :=
  ∃ v, Value.lookup key rule = some v ∧ v ≠ .null

/-- A field is a list in which a text stands. -/
def Lists (rule : List (Value × Value)) (key name : String) : Prop :=
  ∃ items, Value.lookup key rule = some (.list items) ∧ .text name ∈ items

/-- A rule by which objects can come back. -/
def CanUnserialize (rule : List (Value × Value)) : Prop :=
  Value.lookup "methods" rule = some (.text "*") ∨ Lists rule "methods" "unserialize" ∨
    Lists rule "groups" "serialize"

/-- The classes that may be unserialized are given. -/
def ListsClasses (rule : List (Value × Value)) : Prop :=
  ∃ options classes, Value.lookup "options" rule = some (.map options) ∧
    Value.lookup "allow_unserialize_classes" options = some (.list classes)

/-- A manifest has a rule about codecs among those it requires or those it may do without. -/
def HasCodecRule (manifest : Value) (rule : List (Value × Value)) : Prop :=
  ∃ key ∈ ["required_permissions", "optional_permissions"], ∃ rules,
    manifest.get? key = some (.list rules) ∧ .map rule ∈ rules ∧
      Value.lookup "type" rule = some (.text "codec")

variable {path : String}

theorem codecMethods_eq_valid {v : Value} {m : CodecMethods} (h : codecMethods path v = .valid m) :
    (v = .text "*" ∧ m = .all) ∨
      ∃ names, v = .texts names ∧ m = .listed names ∧ ∀ n ∈ names, isMethodName n = true := by
  unfold codecMethods at h
  split at h
  case h_1 =>
    cases h
    exact .inl ⟨rfl, rfl⟩
  case h_2 =>
    split at h
    case h_1 names hnames =>
      split at h
      case h_1 => cases h
      case h_2 hall =>
        cases h
        exact .inr ⟨names, texts_eq_valid hnames, rfl, by simpa using hall⟩
    case h_2 => cases h

theorem readCodecOptions_eq_valid {v : Value} {o : Option (List String)}
    (h : readCodecOptions path v = .valid o) :
    ∃ options, v = .map options ∧
      ∀ classes, o = some classes →
        ∃ vs, Value.lookup "allow_unserialize_classes" options = some (.list vs) := by
  obtain ⟨options, rfl, hread⟩ := object_eq_valid h
  refine ⟨options, rfl, ?_⟩
  rintro classes rfl
  obtain ⟨hnone, -⟩ | ⟨v, xs, hvalue, -, -, hlist⟩ := optional_eq_valid hread
  · cases hnone
  · obtain ⟨vs, rfl, -⟩ := list_eq_valid hlist
    exact ⟨vs, hvalue⟩

theorem CodecUse.fault?_eq_none {u : CodecUse} (h : u.fault? = none) :
    (u.methods ≠ none ∨ u.groups ≠ none) ∧
      (u.needsGuard = true → ∃ classes, u.options = some (some classes)) := by
  unfold fault? at h
  split at h
  case isTrue => cases h
  case isFalse hgiven =>
    split at h
    case isTrue => cases h
    case isFalse hguard =>
      refine ⟨by simpa [imp_iff_not_or] using hgiven, fun hneeds => ?_⟩
      have hsome : u.options.any Option.isSome = true := by simpa [hneeds] using hguard
      obtain ⟨o, ho, hclasses⟩ := (Option.any_eq_true _ _).1 hsome
      obtain ⟨classes, rfl⟩ := Option.isSome_iff_exists.1 hclasses
      exact ⟨classes, ho⟩

theorem readCodecRule_eq_valid {rule : List (Value × Value)} {p : Permission}
    (h : readCodecRule path rule = .valid p) :
    ∃ use : CodecUse, p.capability = .codec use ∧ use.fault? = none ∧
      optional codecMethods ⟨path ++ "." ++ "methods", Value.lookup "methods" rule⟩ =
        .valid use.methods ∧
      optionalTexts ⟨path ++ "." ++ "groups", Value.lookup "groups" rule⟩ = .valid use.groups ∧
      optional readCodecOptions ⟨path ++ "." ++ "options", Value.lookup "options" rule⟩ =
        .valid use.options := by
  obtain ⟨⟨terms, acts, use⟩, hread, rfl⟩ := Checked.map_eq_valid h
  obtain ⟨hread, hfault⟩ := Checked.ensure_eq_valid hread
  -- The field that is read last comes off first.
  obtain ⟨_, options, hfields, hoptions, huse⟩ := Checked.seq_eq_valid (fields_eq_valid hread)
  obtain ⟨_, groups, hrest, hgroups, rfl⟩ := Checked.seq_eq_valid hfields
  obtain ⟨_, methods, hactions, hmethods, rfl⟩ := Checked.seq_eq_valid hrest
  obtain ⟨_, _, htarget, -, rfl⟩ := Checked.seq_eq_valid hactions
  obtain ⟨_, _, hterms, -, rfl⟩ := Checked.seq_eq_valid htarget
  obtain ⟨_, -, rfl⟩ := Checked.map_eq_valid hterms
  cases huse
  exact ⟨_, rfl, hfault, hmethods, hgroups, hoptions⟩

theorem required_eq_valid {α : Type} {c : Check α} {f : Field} {x : α}
    (h : required c f = .valid x) : ∃ v, f.value = some v ∧ c f.path v = .valid x := by
  unfold required at h
  split at h
  case h_1 v hvalue => exact ⟨v, hvalue, h⟩
  case h_2 => cases h

theorem orElse_eq_valid {α : Type} {c : Check α} {unset x : α} {f : Field}
    (h : orElse c unset f = .valid x) :
    f.value = none ∨ ∃ v, f.value = some v ∧ c f.path v = .valid x := by
  unfold orElse at h
  split at h
  case h_1 v hvalue => exact .inr ⟨v, hvalue, h⟩
  case h_2 hnone => exact .inl hnone

theorem readManifest_eq_valid {entries : List (Value × Value)} {m : Manifest}
    (h : readManifest entries = .valid m) :
    ∃ path required optional,
      Check.required (list readPermission)
        ⟨path ++ "required_permissions", Value.lookup "required_permissions" entries⟩ =
          .valid required ∧
      orElse (list readPermission) []
        ⟨path ++ "optional_permissions", Value.lookup "optional_permissions" entries⟩ =
          .valid optional := by
  unfold readManifest at h
  obtain ⟨_, _, htitle, -, -⟩ := Checked.seq_eq_valid (fields_eq_valid h)
  obtain ⟨_, _, hid, -, -⟩ := Checked.seq_eq_valid htitle
  obtain ⟨_, _, hschema, -, -⟩ := Checked.seq_eq_valid hid
  obtain ⟨_, _, hoptional, -, -⟩ := Checked.seq_eq_valid hschema
  obtain ⟨_, optional, hrequired, hoptional, -⟩ := Checked.seq_eq_valid hoptional
  obtain ⟨required, hrequired, -⟩ := Checked.map_eq_valid hrequired
  exact ⟨_, required, optional, hrequired, hoptional⟩

theorem exists_readManifest {offer : HostOffer} {v : Value} {m : Manifest}
    (h : checkManifest offer v = .ok m) :
    ∃ entries, v = .map entries ∧ readManifest entries = .valid m := by
  cases v with
  | map entries =>
    refine ⟨entries, rfl, ?_⟩
    unfold checkManifest at h
    dsimp only at h
    split at h
    case h_1 => cases h
    case h_2 hread =>
      split at h
      case h_1 =>
        cases h
        exact hread
      case h_2 => cases h
  | null | bool | int | float | text | list => cases h

theorem readPermission_of_mem {offer : HostOffer} {manifest : Value} {m : Manifest}
    (h : checkManifest offer manifest = .ok m) {key : String}
    (hkey : key ∈ ["required_permissions", "optional_permissions"]) {rules : List Value}
    (hrules : manifest.get? key = some (.list rules)) {rule : Value} (hrule : rule ∈ rules) :
    ∃ path p, readPermission path rule = .valid p := by
  obtain ⟨entries, rfl, hread⟩ := exists_readManifest h
  obtain ⟨path, required, optional, hrequired, hoptional⟩ := readManifest_eq_valid hread
  have hlist : ∃ path ps, list readPermission path (.list rules) = .valid ps := by
    rw [List.mem_pair] at hkey
    rcases hkey with rfl | rfl
    · obtain ⟨v, hv, hps⟩ := required_eq_valid hrequired
      cases hv.symm.trans hrules
      exact ⟨_, _, hps⟩
    · rcases orElse_eq_valid hoptional with hv | ⟨v, hv, hps⟩
      · cases hv.symm.trans hrules
      · cases hv.symm.trans hrules
        exact ⟨_, _, hps⟩
  obtain ⟨path, ps, hps⟩ := hlist
  exact valid_of_mem_items hps hrule

theorem readCodecRule_of_type {rule : List (Value × Value)} {p : Permission}
    (htype : Value.lookup "type" rule = some (.text "codec"))
    (h : readPermission path (.map rule) = .valid p) : readCodecRule path rule = .valid p := by
  simpa only [readPermission, htype] using h

section

variable {rule : List (Value × Value)} {use : CodecUse}

theorem given_of_optional {α : Type} {c : Check α} {key : String} {x : Option α}
    (h : optional c ⟨path, Value.lookup key rule⟩ = .valid x) (hx : x ≠ none) : Given rule key := by
  rcases optional_eq_valid h with ⟨hnone, -⟩ | ⟨v, a, hv, hnull, -, -⟩
  · exact absurd hnone hx
  · exact ⟨v, hv, hnull⟩

theorem read_of_optional {α : Type} {c : Check α} {key : String} {x : Option α} {v : Value}
    (h : optional c ⟨path, Value.lookup key rule⟩ = .valid x)
    (hv : Value.lookup key rule = some v) (hnull : v ≠ .null) :
    ∃ a, x = some a ∧ c path v = .valid a := by
  rcases optional_eq_valid h with ⟨-, hnone | hnull'⟩ | ⟨w, a, hw, -, ha, hc⟩
  · cases hnone.symm.trans hv
  · cases hnull'.symm.trans hv
    exact absurd rfl hnull
  · cases hw.symm.trans hv
    exact ⟨a, ha, hc⟩

theorem methods_of_list
    (h : optional codecMethods ⟨path, Value.lookup "methods" rule⟩ = .valid use.methods)
    {items : List Value} (hitems : Value.lookup "methods" rule = some (.list items)) :
    ∃ names : List String, items = names.map .text ∧ use.methods = some (.listed names) ∧
      ∀ n ∈ names, isMethodName n = true := by
  obtain ⟨m, hm, hread⟩ := read_of_optional h hitems (by simp)
  rcases codecMethods_eq_valid hread with ⟨hstar, -⟩ | ⟨names, hnames, rfl, hall⟩
  · cases hstar
  · cases hnames
    exact ⟨names, rfl, hm, hall⟩

theorem needsGuard_of_canUnserialize
    (hmethods : optional codecMethods ⟨path, Value.lookup "methods" rule⟩ = .valid use.methods)
    {place : String}
    (hgroups : optionalTexts ⟨place, Value.lookup "groups" rule⟩ = .valid use.groups)
    (h : CanUnserialize rule) : use.needsGuard = true := by
  unfold CodecUse.needsGuard
  rcases h with hstar | ⟨items, hitems, hmem⟩ | ⟨items, hitems, hmem⟩
  · obtain ⟨m, hm, hread⟩ := read_of_optional hmethods hstar (by simp)
    cases hread
    rw [hm]
  · obtain ⟨names, rfl, hm, -⟩ := methods_of_list hmethods hitems
    have hname : "unserialize" ∈ names := by simpa using hmem
    simp [hm, hname]
  · obtain ⟨groups, hg, hread⟩ := read_of_optional hgroups hitems (by simp)
    cases texts_eq_valid hread
    have hname : "serialize" ∈ groups := by simpa using hmem
    split
    · rfl
    · simp [hg, hname]

theorem listsClasses_of_options {place : String}
    (h : optional readCodecOptions ⟨place, Value.lookup "options" rule⟩ = .valid use.options)
    {classes : List String} (hclasses : use.options = some (some classes)) : ListsClasses rule := by
  rcases optional_eq_valid h with ⟨hnone, -⟩ | ⟨v, o, hv, -, ho, hread⟩
  · cases hnone.symm.trans hclasses
  · cases ho.symm.trans hclasses
    obtain ⟨options, rfl, hlist⟩ := readCodecOptions_eq_valid hread
    obtain ⟨vs, hvs⟩ := hlist classes rfl
    exact ⟨options, vs, hv, hvs⟩

end

/-- The rules about codecs of an accepted manifest: its list of functions holds plain names only,
apart from a line feed that may stand behind each; functions or groups are given; and the classes
that may be unserialized are listed if objects can come back. -/
theorem codec_rules_guarded {offer : HostOffer} {manifest : Value} {m : Manifest}
    (h : checkManifest offer manifest = .ok m) {rule : List (Value × Value)}
    (hrule : HasCodecRule manifest rule) :
    (∀ items, Value.lookup "methods" rule = some (.list items) → ∀ v ∈ items,
      ∃ name, IsPlainName name ∧ (v = .text name ∨ v = .text (name ++ "\n"))) ∧
    (Given rule "methods" ∨ Given rule "groups") ∧
    (CanUnserialize rule → ListsClasses rule) := by
  obtain ⟨key, hkey, rules, hrules, hmem, htype⟩ := hrule
  obtain ⟨path, p, hp⟩ := readPermission_of_mem h hkey hrules hmem
  obtain ⟨use, -, hfault, hmethods, hgroups, hoptions⟩ :=
    readCodecRule_eq_valid (readCodecRule_of_type htype hp)
  obtain ⟨hgiven, hguard⟩ := CodecUse.fault?_eq_none hfault
  refine ⟨?_, ?_, ?_⟩
  · intro items hitems v hv
    obtain ⟨names, rfl, -, hall⟩ := methods_of_list hmethods hitems
    obtain ⟨s, hs, rfl⟩ := List.mem_map.1 hv
    obtain ⟨name, hplain, rfl | rfl⟩ := plain_of_isMethodName (hall s hs)
    · exact ⟨s, hplain, .inl rfl⟩
    · exact ⟨name, hplain, .inr rfl⟩
  · exact hgiven.imp (given_of_optional hmethods) (given_of_optional hgroups)
  · intro hcan
    obtain ⟨classes, hclasses⟩ := hguard (needsGuard_of_canUnserialize hmethods hgroups hcan)
    exact listsClasses_of_options hoptions hclasses

/-- A rule about codecs with some methods, and perhaps classes that may be unserialized. -/
def codecRule (methods : Value) (classes : Value) : List (Value × Value) :=
  [(.text "type", .text "codec"), (.text "target", .text "codec"),
    (.text "actions", .texts ["invoke"]), (.text "methods", methods), (.text "options", classes)]

/-- A manifest that requires a single permission. -/
def requiring (rule : List (Value × Value)) : Value :=
  .object [("required_permissions", .list [.map rule])]

theorem hasCodecRule_requiring (methods classes : Value) :
    HasCodecRule (requiring (codecRule methods classes)) (codecRule methods classes) :=
  ⟨"required_permissions", by simp, [_], rfl, List.mem_singleton.2 rfl, rfl⟩

theorem exists_manifest {v : Value} (h : (checkManifest .unknown v).isOk = true) :
    ∃ m, checkManifest .unknown v = .ok m := by
  cases hm : checkManifest .unknown v with
  | ok m => exact ⟨m, rfl⟩
  | error f =>
    rw [hm] at h
    cases h

/-- All functions, with one class that may be unserialized. -/
def guardedRule : List (Value × Value) :=
  codecRule (.text "*") (.object [("allow_unserialize_classes", .texts ["App\\Dto"])])

theorem all_functions_guarded : ∃ m, checkManifest .unknown (requiring guardedRule) = .ok m ∧
    HasCodecRule (requiring guardedRule) guardedRule ∧ CanUnserialize guardedRule ∧
    ListsClasses guardedRule := by
  obtain ⟨m, hm⟩ := exists_manifest (v := requiring guardedRule) (by decide +kernel)
  have hrule : HasCodecRule (requiring guardedRule) guardedRule := hasCodecRule_requiring _ _
  have hcan : CanUnserialize guardedRule := .inl rfl
  exact ⟨m, hm, hrule, hcan, (codec_rules_guarded hm hrule).2.2 hcan⟩

/-- A function whose name ends in a line feed. -/
def feedRule : List (Value × Value) :=
  codecRule (.texts ["unserialize\n"]) .null

/-- A manifest is accepted though a name in it holds a line feed, and no classes are listed. -/
theorem line_feed_passes_for_name : ∃ m, checkManifest .unknown (requiring feedRule) = .ok m ∧
    HasCodecRule (requiring feedRule) feedRule ∧ ¬ ListsClasses feedRule ∧
    ∃ items, Value.lookup "methods" feedRule = some (.list items) ∧
      ∃ v ∈ items, ¬ ∃ name, v = .text name ∧ IsPlainName name := by
  obtain ⟨m, hm⟩ := exists_manifest (v := requiring feedRule) (by decide +kernel)
  refine ⟨m, hm, hasCodecRule_requiring _ _, ?_, [.text "unserialize\n"], rfl, _,
    List.mem_singleton.2 rfl, ?_⟩
  · rintro ⟨options, classes, hoptions, -⟩
    cases hoptions
  · rintro ⟨name, heq, -, hchars⟩
    cases heq
    have hfeed : IsNameChar '\n' := hchars _ (by decide)
    revert hfeed
    unfold IsNameChar
    decide

end Package
end PluginAudit
