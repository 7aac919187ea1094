import PluginAudit.Proofs.AuditLog
import PluginAudit.Proofs.ReportedTypes
import PluginAudit.Proofs.Visits

namespace PluginAudit

/-- The types of what is found outside the syntax trees. -/
def rowTypes : List String :=
  ["suspicious_filename_unicode", "suspicious_double_extension", "php_payload_in_non_php",
    "read_error", "parse_error", "config_file_too_large", "invalid_token_usage",
    "invalid_token_assignment", "invalid_token_function_argument", "blocklist_instantiation",
    "blocklist_constructor", "blocklist_class_reference", "blocklist_method", "forbidden_function",
    "forbidden_function_assignment", "unsupported_function", "forbidden_namespace_import",
    "forbidden_namespace_string", "forbidden_namespace_reference", "composer.composer_file_missing",
    "composer.composer_file_invalid", "composer.forbidden_package_dependency",
    "composer.exception", "config.schema", "config.exception", "hostconfig.error",
    "manifest.invalid", "route.invalid", "scanner.exception", "content.exception",
    "token.exception", "ast.exception"]

theorem catalogued_row {type : String} (h : type ∈ rowTypes) :
    (Catalog.entries.find? type).isSome = true := by
  have all : (rowTypes.all fun type => (Catalog.entries.find? type).isSome) = true := by
    decide +kernel
  exact List.all_eq_true.1 all type h

theorem Violation.Reportable.of_row {v : Violation} (type : v.type ∈ rowTypes)
    (plain : ∀ e ∈ v.data, e.1 ∉ fields) (said : v.issue ≠ "") : v.Reportable :=
  ⟨catalogued_row type, plain, .inl said⟩

theorem Violation.Reportable.of_fixed {v : Violation} (type : v.type ∈ Catalog.fixedTypes)
    (plain : ∀ e ∈ v.data, e.1 ∉ fields) : v.Reportable := by
  have row : ∀ type ∈ Catalog.fixedTypes, type ∈ rowTypes := by decide
  exact ⟨catalogued_row (row _ type), plain, .inr type⟩

namespace Php

open Detect

def namedCallTypes : List String :=
  ["always_forbidden_function", "unsupported_function", "config_dangerous_function",
    "config_risky_function", "obfuscation_function", "function_call_chain_forbidden"]

theorem onlyTypes_namedCall : OnlyTypes namedCallTypes namedCall := by
  intro c s
  unfold namedCall
  split
  case h_1 => exact .nil _
  case h_2 f hf =>
    dsimp only
    refine .append (.append (.append (.append (.ite (.ite (.single ?_) (.nil _)) ?_) ?_) ?_) ?_) ?_
    case refine_1 => simp [namedCallTypes, function]
    all_goals exact .ite (.single (by simp [namedCallTypes, function])) (.nil _)

theorem catalogued_of_mem {types : List String} {type : String}
    (htypes : types ∈ namedCallTypes :: otherTypes) (h : type ∈ types) :
    (Catalog.entries.find? type).isSome = true := by
  have all : ((namedCallTypes :: otherTypes).all fun types =>
      types.all fun type => (Catalog.entries.find? type).isSome) = true := by
    decide +kernel
  exact List.all_eq_true.1 (List.all_eq_true.1 all types htypes) type h

theorem exists_onlyTypes {d : Detector} {k : Kind} (h : d ∈ detectors k) :
    ∃ types ∈ namedCallTypes :: otherTypes, OnlyTypes types d := by
  by_cases hk : k = .functionCallExpression
  case neg =>
    obtain ⟨types, htypes, honly⟩ := exists_onlyTypes_of_mem hk h
    exact ⟨types, List.mem_cons_of_mem _ htypes, honly⟩
  case pos =>
    have hcall : d ∈ namedCall :: callDetectors.tail := by
      rw [hk] at h
      exact h
    obtain rfl | htail := List.mem_cons.1 hcall
    · exact ⟨_, List.mem_cons_self, onlyTypes_namedCall⟩
    · obtain ⟨types, htypes, honly⟩ := exists_onlyTypes_of_call htail
      exact ⟨types, List.mem_cons_of_mem _ htypes, honly⟩

theorem reportable_visit {c : Context} {s : Site} {v : Violation} (h : v ∈ visit c s) :
    v.Reportable := by
  obtain ⟨d, hd, hv⟩ := List.mem_flatMap.1 h
  obtain ⟨types, htypes, honly⟩ := exists_onlyTypes hd
  obtain ⟨htype, plain, said⟩ := honly c s v hv
  exact ⟨catalogued_of_mem htypes htype, plain, .inl said⟩

theorem reportable_parseFault {s : Script} {v : Violation} (h : v ∈ parseFault s) :
    v.Reportable := by
  unfold parseFault at h
  split at h
  case isTrue =>
    obtain rfl := List.mem_singleton.1 h
    exact .of_row (by simp [rowTypes]) (by simp) (by simp)
  case isFalse => cases h

theorem reportable_tooLarge {c : Context} {v : Violation} (h : v ∈ tooLarge c) : v.Reportable := by
  unfold tooLarge at h
  split at h
  case h_1 => cases h
  case h_2 =>
    split at h
    case isTrue =>
      obtain rfl := List.mem_singleton.1 h
      exact .of_row (by simp [rowTypes]) (by simp) (by simp)
    case isFalse => cases h

theorem reportable_scan {policy : Policy} {graph : CallGraph} {s : Script}
    {extension : Option String} {size : Option Nat} {v : Violation}
    (h : v ∈ scan policy graph s extension size) : v.Reportable := by
  rw [scan_eq, List.mem_append, List.mem_append] at h
  obtain (h | h) | h := h
  · exact reportable_parseFault h
  · exact reportable_tooLarge h
  · obtain ⟨p, -, hv⟩ := List.mem_flatMap.1 h
    exact reportable_visit hv

theorem reportable_scanTokens {unwanted : List String} {s : Script} {v : Violation}
    (h : v ∈ s.scanTokens unwanted) : v.Reportable := by
  have hrow (line : Nat) (severity : Severity) (token : String) {issue : String}
      (said : issue ≠ "") : (s.tokenViolation line severity issue token).Reportable :=
    .of_row (by simp [rowTypes, Script.tokenViolation]) (by simp [Script.tokenViolation]) said
  rw [Script.scanTokens, List.mem_append, List.mem_map, List.mem_map] at h
  obtain ⟨u, -, rfl⟩ | ⟨line, -, rfl⟩ := h
  · unfold Script.useViolation
    split
    · exact hrow _ _ _ (by simp)
    · exact hrow _ _ _ (by simp)
  · exact hrow _ _ _ (by simp)

end Php

namespace Lines

variable {l : Line} {s : Searches} {v : Violation}

theorem reportable_violation {type : String} {severity : Severity} {issue : String}
    {data : Table Value} (h : type ∈ rowTypes) (apart : ∀ e ∈ data, e.1 ∉ Violation.fields)
    (said : issue ≠ "") : (l.violation type severity issue data).Reportable :=
  .of_row h apart said

theorem exists_of_mem_report {α : Type} {r : Text.Recognizer α} {f : α → Violation}
    (h : v ∈ l.report r f) : ∃ x, f x = v := by
  obtain ⟨x, -, hx⟩ := Option.map_eq_some_iff.1 (Option.mem_toList.1 h)
  exact ⟨x, hx⟩

theorem reportable_tokenViolations (h : v ∈ tokenViolations s l) : v.Reportable := by
  unfold tokenViolations at h
  split at h
  case isTrue => cases h
  case isFalse =>
    rw [List.mem_append, List.mem_append] at h
    obtain (h | h) | h := h
    all_goals
      obtain ⟨w, rfl⟩ := exists_of_mem_report h
      exact reportable_violation (by simp [rowTypes]) (by simp) (by simp)

theorem reportable_classViolations {cls : String} {allowed : List String}
    (h : v ∈ classViolations l cls allowed) : v.Reportable := by
  unfold classViolations at h
  split at h
  case isTrue => cases h
  case isFalse =>
    rw [List.mem_append, List.mem_append, List.mem_append] at h
    obtain ((h | h) | h) | h := h
    case inr =>
      obtain ⟨⟨n, m⟩, -, hrow⟩ := List.mem_filterMap.1 h
      dsimp only at hrow
      split at hrow
      case isTrue => cases hrow
      case isFalse =>
        cases hrow
        exact reportable_violation (by simp [rowTypes]) (by simp) (by simp)
    all_goals
      obtain ⟨w, rfl⟩ := exists_of_mem_report h
      exact reportable_violation (by simp [rowTypes]) (by simp) (by simp)

theorem reportable_namespaceViolations (h : v ∈ namespaceViolations s l) : v.Reportable := by
  unfold namespaceViolations at h
  split at h
  case isTrue => cases h
  case isFalse =>
    split at h
    case h_1 =>
      obtain ⟨name, -, hrow⟩ := List.mem_filterMap.1 h
      obtain ⟨ns, -, rfl⟩ := Option.map_eq_some_iff.1 hrow
      exact reportable_violation (by simp [rowTypes]) (by simp) (by simp)
    case h_2 =>
      obtain ⟨ns, -, hrow⟩ := List.mem_filterMap.1 h
      split at hrow
      case isTrue =>
        cases hrow
        exact reportable_violation (by simp [rowTypes]) (by simp) (by simp)
      case isFalse =>
        split at hrow
        case isTrue =>
          cases hrow
          exact reportable_violation (by simp [rowTypes]) (by simp) (by simp)
        case isFalse => cases hrow

theorem reportable_functionViolations (h : v ∈ functionViolations s l) : v.Reportable := by
  unfold functionViolations at h
  obtain h | h := List.mem_append.1 h
  · split at h
    case isTrue => cases h
    case isFalse =>
      obtain h | h := List.mem_append.1 h
      all_goals
        obtain ⟨w, rfl⟩ := exists_of_mem_report h
        exact reportable_violation (by simp [rowTypes]) (by simp) (by simp)
  · split at h
    case isTrue => cases h
    case isFalse =>
      obtain ⟨w, rfl⟩ := exists_of_mem_report h
      exact reportable_violation (by simp [rowTypes]) (by simp) (by simp)

theorem reportable_scan {file text : String} (h : v ∈ scan s file text) : v.Reportable := by
  obtain ⟨⟨i, line⟩, -, h⟩ := List.mem_flatMap.1 h
  dsimp only at h
  split at h
  case isTrue => cases h
  case isFalse =>
    rw [lineViolations, List.mem_append, List.mem_append, List.mem_append] at h
    obtain ((h | h) | h) | h := h
    · exact reportable_tokenViolations h
    · obtain ⟨e, -, h⟩ := List.mem_flatMap.1 h
      exact reportable_classViolations h
    · exact reportable_namespaceViolations h
    · exact reportable_functionViolations h

end Lines

theorem Candidate.reportable_flagViolations {limits : ScanLimits} {c : Candidate} {v : Violation}
    (h : v ∈ c.flagViolations limits) : v.Reportable := by
  have known (flag : FileFlag) : flag.label ∈ rowTypes := by
    cases flag <;> simp [rowTypes, FileFlag.label]
  have hinted (flag : FileFlag) : flag.hint ≠ "" := by
    cases flag <;> simp [FileFlag.hint]
  unfold flagViolations at h
  split at h
  case isTrue =>
    obtain ⟨flag, -, rfl⟩ := List.mem_map.1 h
    exact .of_row (known flag) (by simp) (hinted flag)
  case isFalse => cases h

namespace Package

theorem listed_scanDependencies {p : Policy} {t : FileTree} {path : Path} {v : Violation}
    (h : v ∈ scanDependencies p t path) :
    v.type ∈ ["forbidden_package_dependency", "composer_file_missing", "composer_file_invalid"] ∧
      v.Plain ∧ v.issue ≠ "" := by
  have hrow (type : String) (severity : Severity) (issue : String) :
      (dependencyViolation path.text type severity issue []).Plain := by
    simp [Violation.Plain, dependencyViolation]
  unfold scanDependencies at h
  dsimp only at h
  split at h
  case isTrue =>
    obtain rfl := List.mem_singleton.1 h
    exact ⟨by simp [dependencyViolation], hrow _ _ _, by simp [dependencyViolation]⟩
  case isFalse =>
    split at h
    case h_1 =>
      obtain ⟨section_, -, hv⟩ := List.mem_flatMap.1 h
      obtain ⟨⟨package, version⟩, -, hfound⟩ := List.mem_filterMap.1 hv
      dsimp only at hfound
      split at hfound
      case isTrue =>
        cases hfound
        exact ⟨by simp [dependencyViolation], by simp [Violation.Plain, dependencyViolation],
          by simp [dependencyViolation]⟩
      case isFalse => cases hfound
    case h_2 =>
      obtain rfl := List.mem_singleton.1 h
      exact ⟨by simp [dependencyViolation], hrow _ _ _, by simp [dependencyViolation]⟩

end Package

theorem exists_of_map_ok {α β : Type} {f : α → β} {r : Except Fault α} {y : β}
    (h : r.map f = .ok y) : ∃ x, r = .ok x ∧ f x = y := by
  cases r with
  | error e => cases h
  | ok x =>
    cases h
    exact ⟨x, rfl, rfl⟩

/-- Workers that find reportable violations only. The type of what is found about a dependency is
told by the check that it comes from. -/
structure Workers.Reporting (w : Workers) : Prop where
  dependencies : ∀ path vs, w.dependencies path = .ok vs →
    ∀ v ∈ vs, ({ v with type := "composer." ++ v.type } : Violation).Reportable
  content : ∀ s vs, w.content s = .ok vs → ∀ v ∈ vs, v.Reportable
  tokens : ∀ s vs, w.tokens s = .ok vs → ∀ v ∈ vs, v.Reportable
  syntaxTree : ∀ graph c s scan, w.syntaxTree graph c s = .ok scan →
    ∀ facts, ∀ v ∈ (scan facts).1, v.Reportable

theorem of_elim_error {α : Type} {fault : Option Fault} {r : Except Fault α} {x : α}
    (h : fault.elim r .error = .ok x) : r = .ok x := by
  cases fault with
  | none => exact h
  | some f => cases h

theorem Audit.workers_reporting (a : Audit) (t : FileTree) : (a.workers t).Reporting where
  dependencies := by
    have known : ∀ type ∈ ["forbidden_package_dependency", "composer_file_missing",
        "composer_file_invalid"], "composer." ++ type ∈ rowTypes := by
      simp [rowTypes]
    intro path vs hvs v hv
    cases of_elim_error hvs
    obtain ⟨htype, plain, said⟩ := Package.listed_scanDependencies hv
    exact .of_row (known _ htype) plain said
  content := by
    rintro s vs ⟨⟩ v hv
    exact Lines.reportable_scan hv
  tokens := by
    rintro s vs ⟨⟩ v hv
    exact Php.reportable_scanTokens hv
  syntaxTree := by
    rintro graph c s scan ⟨⟩ facts v hv
    exact Php.reportable_scan hv

theorem Workers.Reporting.failing {w : Workers} (hw : w.Reporting) (fs : Failures) :
    (w.failing fs).Reporting where
  dependencies path vs h := hw.dependencies path vs (of_elim_error h)
  content s vs h := hw.content s vs (of_elim_error h)
  tokens s vs h := hw.tokens s vs (of_elim_error h)
  syntaxTree graph c s scan h := hw.syntaxTree graph c s scan (of_elim_error h)

namespace Audit

variable {a : Audit} {w : Workers} {root : Path} {v : Violation} {type file : String}

theorem reportable_failure {f : Fault} (htype : type ∈ Catalog.fixedTypes) :
    (failure type file f).Reportable :=
  .of_fixed htype (by simp [failure, fileViolation])

theorem reportable_found {r : Except Fault (List Violation)} (htype : type ∈ Catalog.fixedTypes)
    (each : ∀ vs, r = .ok vs → ∀ v ∈ vs, v.Reportable) (h : v ∈ found type file r) :
    v.Reportable := by
  cases r with
  | ok vs => exact each vs rfl v h
  | error f =>
    obtain rfl := List.mem_singleton.1 h
    exact reportable_failure htype

theorem extra_apart {f : PackageFault} {e : String × Value} (h : e ∈ f.extra) :
    e.1 ∉ Violation.fields := by
  have all : ∀ e ∈ f.extra, e.1 ∉ Violation.fields := by
    unfold PackageFault.extra
    split <;> simp
  exact all e h

theorem reportable_checked {r : Except CheckFault Unit}
    (htype : type ∈ Catalog.fixedTypes) (h : v ∈ checked type file r) : v.Reportable := by
  unfold checked at h
  split at h
  case h_1 => cases h
  case h_2 f =>
    obtain rfl := List.mem_singleton.1 h
    refine .of_fixed htype fun e he => ?_
    obtain ⟨x, hx, heq⟩ | he := Table.of_mem_foldl_put _ he
    · rw [heq]
      exact extra_apart hx
    · obtain rfl := List.mem_singleton.1 he
      simp
  case h_3 f =>
    obtain rfl := List.mem_singleton.1 h
    exact reportable_failure htype

theorem reportable_dependencyRows (hw : w.Reporting) (h : v ∈ dependencyRows w root) :
    v.Reportable := by
  refine reportable_found (by simp [Catalog.fixedTypes]) ?_ h
  intro vs hvs v hv
  obtain ⟨found, hfound, rfl⟩ := exists_of_map_ok hvs
  obtain ⟨u, hu, rfl⟩ := List.mem_map.1 hv
  exact hw.dependencies root found hfound u hu

theorem details_apart {report : Package.ConfigReport} {detail : List (String × Value)}
    (h : detail ∈ report.details) {e : String × Value} (he : e ∈ detail) :
    e.1 ∉ Violation.fields := by
  cases report with
  | refused mismatches =>
    obtain ⟨m, -, rfl⟩ := List.mem_map.1 h
    have all : ∀ e ∈ Package.mismatchRecord m, e.1 ∉ Violation.fields := by
      simp [Package.mismatchRecord]
    exact all e he
  | valid | missing | unreadable => cases h

theorem reportable_configRows {schema : Package.ConfigSchema}
    (h : v ∈ configRows w root schema) : v.Reportable := by
  unfold configRows at h
  dsimp only at h
  split at h
  case h_1 f hf =>
    obtain rfl := List.mem_singleton.1 h
    exact reportable_failure (by simp [Catalog.fixedTypes])
  case h_2 report hreport =>
    split at h
    case h_1 => cases h
    case h_2 error herror =>
      obtain ⟨detail, hdetail, rfl⟩ := List.mem_map.1 h
      refine .of_fixed (by simp [Catalog.fixedTypes, fileViolation]) fun e he => ?_
      split at hdetail
      case isTrue =>
        obtain rfl := List.mem_singleton.1 hdetail
        cases he
      case isFalse => exact details_apart hdetail he

theorem reportable_routeRows {registry : Package.RouteRegistry} {files : List String}
    (h : v ∈ routeRows w root registry files) : v.Reportable := by
  induction files generalizing registry with
  | nil => cases h
  | cons file rest ih =>
    rw [routeRows] at h
    obtain h | h := List.mem_append.1 h
    · exact reportable_checked (by simp [Catalog.fixedTypes]) h
    · exact ih h

theorem reportable_packageRows (hw : w.Reporting) {schema : Option Package.ConfigSchema}
    {check : PackageCheck} {vs : List Violation}
    (hvs : a.packageRows w root schema check = .ok vs) (h : v ∈ vs) : v.Reportable := by
  cases check with
  | dependencies =>
    obtain ⟨path, -, rfl⟩ := exists_of_map_ok hvs
    exact reportable_dependencyRows hw h
  | config =>
    cases hvs
    cases schema with
    | none => cases h
    | some schema => exact reportable_configRows h
  | hostConfig =>
    cases hvs
    exact reportable_checked (by simp [Catalog.fixedTypes]) h
  | manifest =>
    obtain ⟨path, -, rfl⟩ := exists_of_map_ok hvs
    exact reportable_checked (by simp [Catalog.fixedTypes]) h
  | routes =>
    cases hvs
    exact reportable_routeRows h

theorem reportable_unparsed {f : ScannedFile} (h : f.unparsed? = some v) : v.Reportable := by
  unfold ScannedFile.unparsed? at h
  split at h
  case h_1 => cases h
  case h_2 =>
    split at h
    case isTrue =>
      cases h
      exact .of_row (by simp [rowTypes, fileViolation]) (by simp [fileViolation])
        (by simp [fileViolation])
    case isFalse =>
      cases h
      exact reportable_failure (by simp [Catalog.fixedTypes])

theorem reportable_workerRows (hw : w.Reporting) {graph : Php.CallGraph} {c : Candidate}
    {s : Php.Script} (h : v ∈ a.workerRows w graph c s) : v.Reportable := by
  rw [workerRows, scanRows, List.mem_append, List.mem_append] at h
  obtain h | h | h := h
  all_goals
    split at h
    case isFalse => cases h
  case inl.isTrue => exact reportable_found (by simp [Catalog.fixedTypes]) (hw.content s) h
  case inr.inl.isTrue => exact reportable_found (by simp [Catalog.fixedTypes]) (hw.tokens s) h
  case inr.inr.isTrue =>
    refine reportable_found (by simp [Catalog.fixedTypes]) ?_ h
    intro vs hvs
    obtain ⟨scan, hscan, rfl⟩ := exists_of_map_ok hvs
    exact hw.syntaxTree graph c s scan hscan .empty

theorem reportable_fileRows {scan : Candidate → Php.Script → List Violation} {f : ScannedFile}
    {limits : ScanLimits} (each : ∀ c s, ∀ v ∈ scan c s, v.Reportable)
    (h : v ∈ fileRows limits scan f) : v.Reportable := by
  obtain h | h := List.mem_append.1 h
  · exact f.candidate.reportable_flagViolations h
  · cases hscript : f.script with
    | error e =>
      rw [hscript] at h
      cases h
    | ok s =>
      rw [hscript] at h
      exact each _ s v h

theorem reportable_account (hw : w.Reporting)
    (h : v ∈ (a.account (a.workerRows w) w root).rows) : v.Reportable := by
  unfold account at h
  split at h
  case isFalse => cases h
  case isTrue =>
    split at h
    case h_1 =>
      obtain rfl := List.mem_singleton.1 h
      exact reportable_failure (by simp [Catalog.fixedTypes])
    case h_2 =>
      obtain h | h := List.mem_append.1 h
      · obtain ⟨f, -, hf⟩ := List.mem_filterMap.1 h
        exact reportable_unparsed hf
      · obtain ⟨f, -, hv⟩ := List.mem_flatMap.1 h
        exact reportable_fileRows (fun c s v hv => reportable_workerRows hw hv) hv

theorem reportable_wantedRows (hw : w.Reporting) {schema : Option Package.ConfigSchema}
    {check : PackageCheck} {vs : List Violation}
    (hvs : a.wantedRows w root schema check = .ok vs) (h : v ∈ vs) : v.Reportable := by
  unfold wantedRows at hvs
  split at hvs
  case isTrue => exact reportable_packageRows hw hvs h
  case isFalse =>
    cases hvs
    cases h

end Audit

end PluginAudit
