import PluginAudit.Policy.Build
import PluginAudit.Proofs.ReportableRows

namespace PluginAudit

/-- A computation that ends with a fault which is none of the configuration. -/
def Escapes {α : Type} (r : Except Fault α) : Prop :=
  ∃ f, r = .error f ∧ ∀ c, f ≠ .config c

section

variable {α β : Type} {x : α} {r : Except Fault α} {f : Fault}

theorem not_escapes_ok : ¬ Escapes (.ok x) := by
  rintro ⟨f, ⟨⟩, -⟩

theorem escapes_error_iff : Escapes (.error f : Except Fault α) ↔ ∀ c, f ≠ .config c := by
  simp [Escapes]

theorem escapes_bind_iff {g : α → Except Fault β} :
    Escapes (r >>= g) ↔ Escapes r ∨ ∃ x, r = .ok x ∧ Escapes (g x) := by
  cases r with
  | ok x => simp [bind, Except.bind, not_escapes_ok]
  | error f => simp [bind, Except.bind, escapes_error_iff]

theorem settled_iff : ((∃ x, r = .ok x) ∨ ∃ c, r = .error (.config c)) ↔ ¬ Escapes r := by
  cases r with
  | ok x => simp [not_escapes_ok]
  | error f => simp [escapes_error_iff]

end

namespace Schema.Dialect

variable {unset : Dialect} {v : Value}

/-- A value that cannot name a dialect: a URL with a flaw, or no text, unless it counts as nothing
and is no collection. -/
def NoName : Value → Prop
  | .text name => (Url.siteFlaw? (Url.ofText name).site).isSome = true
  | .list _ | .map _ => True
  | v => v.isTruthy = true

/-- A JSON value of which it cannot be told in what dialect it is written. -/
def NoDialect : Value → Prop
  | .bool _ => False
  | .map entries => ∃ v, Value.lookup "$schema" entries = some v ∧ NoName v
  | .list items => ∃ v ∈ items, v.same (.text "$schema") = true
  | .text s => Text.contains s "$schema" = true
  | .null | .int _ | .float _ => True

theorem escapes_named_iff : Escapes (named unset v) ↔ NoName v := by
  cases v with
  | text name =>
    unfold named NoName Url.normal
    dsimp only
    cases Url.siteFlaw? (Url.ofText name).site with
    | none => simp [escapes_bind_iff, not_escapes_ok, pure, Except.pure]
    | some flaw => simp [escapes_error_iff]
  | list | map => simp [named, NoName, escapes_error_iff]
  | null | bool | int | float =>
    rw [named, NoName]
    split
    case isTrue h => simp [h, escapes_error_iff]
    case isFalse h => simp [h, not_escapes_ok]
    all_goals simp

theorem escapes_ofSchema_iff : Escapes (ofSchema unset v) ↔ NoDialect v := by
  cases v with
  | bool => simp [ofSchema, NoDialect, not_escapes_ok]
  | map entries =>
    unfold ofSchema NoDialect
    dsimp only
    cases Value.lookup "$schema" entries with
    | none => simp [not_escapes_ok]
    | some w => simpa using escapes_named_iff
  | list items =>
    unfold ofSchema NoDialect
    dsimp only
    split
    case isTrue h => simpa [escapes_error_iff] using h
    case isFalse h => simpa [not_escapes_ok] using h
  | text s =>
    unfold ofSchema NoDialect
    dsimp only
    split
    case isTrue h => simp [escapes_error_iff, h]
    case isFalse h => simp [not_escapes_ok, h]
  | null | int | float => simp [ofSchema, NoDialect, escapes_error_iff]

end Schema.Dialect

/-- A value is not examined if its dialect cannot be told or cannot judge it. -/
theorem Schema.escapes_examine_iff {v : Value} : Escapes (examine v) ↔
    Dialect.NoDialect v ∨ ∃ d, Dialect.ofSchema .latest v = .ok d ∧ Escapes (firstFlaw? d v) := by
  unfold examine
  rw [escapes_bind_iff, Dialect.escapes_ofSchema_iff]
  refine or_congr_right (exists_congr fun d => and_congr_right fun _ => ?_)
  rw [escapes_bind_iff]
  refine or_iff_left ?_
  rintro ⟨_ | flaw, -, h⟩ <;> exact not_escapes_ok h

namespace Json

variable {s : String}

theorem escapes_read_iff :
    Escapes (read s) ↔ ∃ digits place, parse s = .error ⟨.longInteger digits, place⟩ := by
  unfold read
  split
  case h_1 hparse => simp [hparse, not_escapes_ok]
  case h_2 hparse => simp [hparse, escapes_error_iff]
  case h_3 e hother hparse =>
    simp only [not_escapes_ok, false_iff, not_exists]
    intro digits place h
    cases hparse.symm.trans h
    exact hother _ _ rfl

theorem read_eq_ok_iff {v : Value} : read s = .ok (.ok v) ↔ parse s = .ok v := by
  unfold read
  split <;> simp_all

end Json

theorem FileTree.readText_error {t : FileTree} {path : Path} {f : Fault}
    (h : t.readText path = .error f) : f.isFile = true ∨ ∃ e, f = .encoding e := by
  unfold readText read at h
  split at h
  case h_1 content hread =>
    dsimp only [bind, Except.bind] at h
    split at h
    · cases h
    · cases h
      exact .inr ⟨_, rfl⟩
  all_goals
    cases h
    exact .inl rfl

namespace Access

variable {via : Access} {path : Path}

/-- The file of a schema is neither loaded nor refused: its text cannot be read, and not for a fault
of the file system, or there is no answer to whether the text is JSON, or none to whether its value
is a schema. -/
inductive LoadSlips (via : Access) (path : Path) : Prop
  | text {f : Fault} : via.readText path = .error f → f.isFile = false → (∀ c, f ≠ .config c) →
      LoadSlips via path
  | value {s : String} : via.readText path = .ok s → Escapes (via.parse s) → LoadSlips via path
  | schema {s : String} {v : Value} : via.readText path = .ok s → via.parse s = .ok (.ok v) →
      Escapes (via.examine v) → LoadSlips via path

theorem loadSlips_iff_of_error {f : Fault} (hread : via.readText path = .error f) :
    via.LoadSlips path ↔ f.isFile = false ∧ ∀ c, f ≠ .config c := by
  constructor
  · rintro (⟨hfault, hother, hforeign⟩ | ⟨htext, -⟩ | ⟨htext, -, -⟩)
    · cases hread.symm.trans hfault
      exact ⟨hother, hforeign⟩
    all_goals cases hread.symm.trans htext
  · exact fun ⟨hother, hforeign⟩ => .text hread hother hforeign

theorem loadSlips_iff_of_ok {s : String} (hread : via.readText path = .ok s) :
    via.LoadSlips path ↔ Escapes (via.parse s) ∨
      ∃ v, via.parse s = .ok (.ok v) ∧ Escapes (via.examine v) := by
  constructor
  · rintro (⟨hfault, -, -⟩ | ⟨htext, hparse⟩ | ⟨htext, hparse, hexamine⟩)
    · cases hread.symm.trans hfault
    · cases hread.symm.trans htext
      exact .inl hparse
    · cases hread.symm.trans htext
      exact .inr ⟨_, hparse, hexamine⟩
  · rintro (hparse | ⟨v, hparse, hexamine⟩)
    · exact .value hread hparse
    · exact .schema hread hparse hexamine

theorem escapes_loadVia_iff : Escapes (Package.ConfigSchema.loadVia via path) ↔ via.LoadSlips path := by
  unfold Package.ConfigSchema.loadVia
  cases hread : via.readText path with
  | error f =>
    rw [loadSlips_iff_of_error hread]
    dsimp only
    rw [escapes_error_iff]
    cases f.isFile <;> simp
  | ok s =>
    rw [loadSlips_iff_of_ok hread]
    dsimp only
    rw [escapes_bind_iff]
    refine or_congr_right ⟨?_, ?_⟩
    · rintro ⟨e | v, hparse, hload⟩
      · exact absurd rfl (escapes_error_iff.1 hload _)
      -- What is wrong with a schema is a fault of the configuration.
      obtain hexamine | ⟨flaw | dialect, -, hload⟩ := escapes_bind_iff.1 hload
      · exact ⟨v, hparse, hexamine⟩
      · exact absurd rfl (escapes_error_iff.1 hload _)
      · exact absurd hload not_escapes_ok
    · rintro ⟨v, hparse, hexamine⟩
      exact ⟨_, hparse, escapes_bind_iff.2 (.inl hexamine)⟩

end Access

/-- No schema is read from a file of a tree, and none refused, if its bytes are no text, if an integer
in it has too many digits, or if the dialect of its value cannot be told or cannot judge it. -/
theorem Package.ConfigSchema.escapes_load_iff {t : FileTree} {path : Path} :
    Escapes (load t path) ↔ (∃ e, t.readText path = .error (.encoding e)) ∨
      ∃ s, t.readText path = .ok s ∧
        ((∃ digits place, Json.parse s = .error ⟨.longInteger digits, place⟩) ∨
          ∃ v, Json.parse s = .ok v ∧ (Schema.Dialect.NoDialect v ∨
            ∃ d, Schema.Dialect.ofSchema .latest v = .ok d ∧ Escapes (Schema.firstFlaw? d v))) := by
  rw [load, Access.escapes_loadVia_iff]
  cases hread : t.readText path with
  | error f =>
    rw [Access.loadSlips_iff_of_error hread]
    have hcause := t.readText_error hread
    constructor
    · rintro ⟨hother, -⟩
      obtain hfile | ⟨e, rfl⟩ := hcause
      · cases hfile.symm.trans hother
      · exact .inl ⟨e, rfl⟩
    · rintro (⟨e, he⟩ | ⟨s, hs, -⟩)
      · cases he
        exact ⟨rfl, by simp⟩
      · cases hs
  | ok s =>
    rw [Access.loadSlips_iff_of_ok hread]
    simp only [FileTree.access, Json.escapes_read_iff, Json.read_eq_ok_iff,
      Schema.escapes_examine_iff, reduceCtorEq, exists_false, false_or, Except.ok.injEq,
      exists_eq_left']

namespace Audit

open Run

variable {a : Audit} {via : Access} {root : Path} {schema : Option Package.ConfigSchema}
  {w : Workers} {given : String} {sink : Sink}

/-- A configured value that is no path. -/
def NoPath (v : Value) : Prop :=
  ∀ s, v ≠ .text s

theorem map_pathFrom_error {v : Value} {rows : Path → List Violation} {f : Fault}
    (h : (pathFrom root v).map rows = .error f) : f = .notPath (typeName v) ∧ NoPath v := by
  unfold pathFrom at h
  split at h
  case h_1 => cases h
  case h_2 hv =>
    cases h
    exact ⟨rfl, hv⟩

theorem NoPath.pathFrom {v : Value} (h : NoPath v) :
    pathFrom root v = .error (.notPath (typeName v)) := by
  cases v with
  | text s => exact absurd rfl (h s)
  | null | bool | int | float | list | map => rfl

/-- A schema is asked for, but it is no path, or it cannot be told whether there is a file, or the
file slips. -/
def SchemaSlips (a : Audit) (via : Access) (root : Path) : Prop :=
  a.pipeline.package.schema.isTruthy = true ∧ a.isOn .config = true ∧
    (NoPath a.pipeline.package.schema ∨
      ∃ s, a.pipeline.package.schema = .text s ∧
        (Escapes (via.isFile (root.join (Path.ofText s))) ∨
          via.isFile (root.join (Path.ofText s)) = .ok true ∧
            via.LoadSlips (root.join (Path.ofText s))))

/-- A check of the package is asked for, but the place of its file is no path. -/
def PackageSlips (a : Audit) : Prop :=
  (a.isOn .composer = true ∧ NoPath a.pipeline.package.composer) ∨
    (a.pipeline.package.manifest.isTruthy = true ∧ a.isOn .permissionManifest = true ∧
      NoPath a.pipeline.package.manifest)

theorem escapes_schemaOf_iff : Escapes (a.schemaOf via root) ↔ a.SchemaSlips via root := by
  unfold schemaOf SchemaSlips
  dsimp only
  split
  case isTrue skipped =>
    have hskipped : ¬ (a.pipeline.package.schema.isTruthy = true ∧ a.isOn .config = true) := by
      simpa [imp_iff_not_or] using skipped
    exact ⟨fun h => absurd h not_escapes_ok, fun h => absurd ⟨h.1, h.2.1⟩ hskipped⟩
  case isFalse asked =>
    have hasked : a.pipeline.package.schema.isTruthy = true ∧ a.isOn .config = true := by
      simpa using asked
    rw [hasked.1, hasked.2, escapes_bind_iff]
    cases hgiven : a.pipeline.package.schema with
    | text s =>
      have hpath : ¬ NoPath (.text s) := fun h => h s rfl
      have hgiven : pathFrom root (.text s) = .ok (root.join (Path.ofText s)) := rfl
      simp only [hgiven, not_escapes_ok, true_and, Except.ok.injEq, exists_eq_left', hpath,
        false_or, Value.text.injEq, escapes_bind_iff]
      -- Once it is known whether there is a file, only its schema can slip.
      refine or_congr_right ?_
      constructor
      · rintro ⟨found, hfound, hload⟩
        cases found with
        | false => exact absurd rfl (escapes_error_iff.1 hload _)
        | true =>
          obtain hload | ⟨schema, -, hschema⟩ := escapes_bind_iff.1 hload
          · exact ⟨hfound, Access.escapes_loadVia_iff.1 hload⟩
          · exact absurd hschema not_escapes_ok
      · rintro ⟨hfound, hslips⟩
        exact ⟨true, hfound, escapes_bind_iff.2 (.inl (Access.escapes_loadVia_iff.2 hslips))⟩
    | null | bool | int | float | list | map =>
      simp [pathFrom, NoPath, escapes_error_iff]

theorem wantedRows_error {check : PackageCheck} {f : Fault}
    (h : a.wantedRows w root schema check = .error f) :
    (∃ type, f = .notPath type) ∧ a.PackageSlips := by
  unfold wantedRows at h
  split at h
  case isFalse => cases h
  case isTrue wanted =>
    cases check with
    | dependencies =>
      obtain ⟨rfl, hno⟩ := map_pathFrom_error h
      exact ⟨⟨_, rfl⟩, .inl ⟨wanted, hno⟩⟩
    | manifest =>
      obtain ⟨rfl, hno⟩ := map_pathFrom_error h
      obtain ⟨htruthy, hon⟩ := Bool.and_eq_true_iff.1 wanted
      exact ⟨⟨_, rfl⟩, .inr ⟨htruthy, hon, hno⟩⟩
    | config | hostConfig | routes => cases h

theorem PackageSlips.exists_error (h : a.PackageSlips) (w : Workers) (root : Path)
    (schema : Option Package.ConfigSchema) :
    ∃ check ∈ PackageCheck.all, ∃ f, a.wantedRows w root schema check = .error f := by
  obtain ⟨hon, hno⟩ | ⟨htruthy, hon, hno⟩ := h
  · have wanted : a.wants schema .dependencies = true := hon
    have failed : a.wantedRows w root schema .dependencies =
        .error (.notPath (typeName a.pipeline.package.composer)) := by
      rw [wantedRows, if_pos wanted, packageRows, hno.pathFrom, Except.map]
    exact ⟨_, by simp [PackageCheck.all], _, failed⟩
  · have wanted : a.wants schema .manifest = true := Bool.and_eq_true_iff.2 ⟨htruthy, hon⟩
    have failed : a.wantedRows w root schema .manifest =
        .error (.notPath (typeName a.pipeline.package.manifest)) := by
      rw [wantedRows, if_pos wanted, packageRows, hno.pathFrom, Except.map]
    exact ⟨_, by simp [PackageCheck.all], _, failed⟩

theorem runWith_of_rootOf_error {f : Fault} (hroot : rootOf via given = .error f) :
    a.runWith w via given sink = .error f := by
  change ((a.auditAll w via given).resume sink ⟨#[], #[]⟩).1 = .error f
  simp only [auditAll, resume_bind, resume_orFault, hroot]

theorem runWith_of_schemaOf_error {f : Fault} (hroot : rootOf via given = .ok root)
    (hschema : a.schemaOf via root = .error f) : a.runWith w via given sink = .error f := by
  change ((a.auditAll w via given).resume sink ⟨#[], #[]⟩).1 = .error f
  simp only [auditAll, resume_bind, resume_orFault, hroot, hschema]

theorem runWith_of_wantedRows_error {f : Fault} (hroot : rootOf via given = .ok root)
    (hschema : a.schemaOf via root = .ok schema)
    (hhead : PackageCheck.all.mapM (a.wantedRows w root schema) = .error f) :
    a.runWith w via given sink = .error f := by
  obtain ⟨rows, notes, -, -, failed⟩ := a.checkAll_error hhead
  change ((a.auditAll w via given).resume sink ⟨#[], #[]⟩).1 = .error f
  simp only [auditAll, resume_bind, resume_orFault, hroot, hschema, failed]

theorem runWith_of_wantedRows_ok (reporting : w.Reporting) (proper : w.Proper)
    {head : List (List Violation)} (hroot : rootOf via given = .ok root)
    (hschema : a.schemaOf via root = .ok schema)
    (hhead : PackageCheck.all.mapM (a.wantedRows w root schema) = .ok head)
    (rows : ∀ vs ∈ head, ∃ check ∈ PackageCheck.all,
      a.wantedRows w root schema check = .ok vs) (sink : Sink) :
    ∃ s, a.runWith w via given sink = .ok s := by
  have reportable : ∀ v ∈ head.flatten ++ (a.account (a.workerRows w) w root).rows,
      v.Reportable := by
    intro v hv
    obtain hv | hv := List.mem_append.1 hv
    · obtain ⟨vs, hvs, hv⟩ := List.mem_flatten.1 hv
      obtain ⟨check, -, hcheck⟩ := rows vs hvs
      exact reportable_wantedRows reporting hcheck hv
    · exact reportable_account reporting hv
  obtain ⟨reports, hreports⟩ := Report.exists_of_all_reportable reportable
  exact a.runWith_succeeds proper hroot hschema hhead hreports sink

theorem escapes_runWith_of_schemaOf_ok (reporting : w.Reporting) (proper : w.Proper)
    (hroot : rootOf via given = .ok root) (hschema : a.schemaOf via root = .ok schema) :
    Escapes (a.runWith w via given sink) ↔ a.PackageSlips := by
  obtain ⟨head, hhead, each, rows⟩ | ⟨f, hf, check, -, hcheck⟩ :=
    mapM_cases (a.wantedRows w root schema) PackageCheck.all
  · -- Every check gives its rows, so none of them can have slipped.
    obtain ⟨s, hs⟩ := runWith_of_wantedRows_ok reporting proper hroot hschema hhead rows sink
    refine ⟨fun h => absurd (hs ▸ h) not_escapes_ok, fun slips => ?_⟩
    obtain ⟨check, hmem, f, hf⟩ := slips.exists_error w root schema
    obtain ⟨vs, hvs⟩ := each check hmem
    cases hf.symm.trans hvs
  · obtain ⟨⟨type, rfl⟩, slips⟩ := wantedRows_error hcheck
    rw [runWith_of_wantedRows_error hroot hschema hf]
    simp [slips, escapes_error_iff]

/-- An audit slips on a directory if its schema does, or if there is nothing against the schema and
the place of a file of the package is no path. -/
def Slips (a : Audit) (via : Access) (root : Path) : Prop :=
  a.SchemaSlips via root ∨ (∃ schema, a.schemaOf via root = .ok schema) ∧ a.PackageSlips

theorem escapes_runWith_of_rootOf_ok (reporting : w.Reporting) (proper : w.Proper)
    (hroot : rootOf via given = .ok root) :
    Escapes (a.runWith w via given sink) ↔ a.Slips via root := by
  have slipsOnSchema : Escapes (a.schemaOf via root) ↔ a.SchemaSlips via root :=
    escapes_schemaOf_iff
  -- The schema comes first: the places of the other files count only if it is settled.
  rw [Slips, ← slipsOnSchema]
  cases hschema : a.schemaOf via root with
  | error f =>
    rw [runWith_of_schemaOf_error hroot hschema]
    simp [escapes_error_iff]
  | ok schema =>
    rw [escapes_runWith_of_schemaOf_ok reporting proper hroot hschema]
    simp [not_escapes_ok]

theorem escapes_runWith_iff (reporting : w.Reporting) (proper : w.Proper) :
    Escapes (a.runWith w via given sink) ↔ Escapes (via.directory? given) ∨
      ∃ root, via.directory? given = .ok (some root) ∧ a.Slips via root := by
  cases hdirectory : via.directory? given with
  | error f =>
    have hroot : rootOf via given = .error f := by rw [rootOf, hdirectory]; rfl
    rw [runWith_of_rootOf_error hroot]
    simp [escapes_error_iff]
  | ok found =>
    cases found with
    | none =>
      have hroot : rootOf via given = .error (.config (.badRoot given)) := by
        rw [rootOf, hdirectory]; rfl
      rw [runWith_of_rootOf_error hroot]
      simp [escapes_error_iff, not_escapes_ok]
    | some root =>
      have hroot : rootOf via given = .ok root := by rw [rootOf, hdirectory]; rfl
      rw [escapes_runWith_of_rootOf_ok reporting proper hroot]
      simp [not_escapes_ok]

/-- An audit ends well or with a fault of the configuration, whatever fails in it and whoever
listens, exactly if it can be told whether there is a directory and the audit does not slip on it.
How the directory and the file of the schema are found and read, how a JSON text is read, and what
is a schema, which a library says, are left to `via`, every part of which can fail in any way. -/
theorem run_settled_iff (a : Audit) (t : FileTree) (fs : Failures) (via : Access)
    (given : String) (sink : Sink) :
    let r := a.runWith ((a.workers t).failing fs) via given sink
    (∃ s, r = .ok s) ∨ (∃ c, r = .error (.config c)) ↔
      ¬ Escapes (via.directory? given) ∧
        ∀ root, via.directory? given = .ok (some root) → ¬ a.Slips via root := by
  intro r
  have slips : Escapes r ↔ _ :=
    escapes_runWith_iff ((a.workers_reporting t).failing fs) ((a.workers_proper t).failing fs)
  rw [settled_iff, slips]
  simp only [not_or, not_exists, not_and]

/-- A plugin with a script, and a schema that is no text. -/
def badSchema : FileTree :=
  ⟨.dir [("p", .dir [("a.php", .file ⟨#[]⟩), ("schema.json", .file ⟨#[0xff]⟩)])], Path.ofText "/"⟩

/-- A configuration of the files of the package. -/
def headline (key : String) (v : Value) : List (Value × Value) :=
  [(.text "headline", .map [(.text key, v)])]

theorem badSchema_root : rootOf badSchema "/p" = .ok ⟨1, ["p"]⟩ := by cbv

/-- A number for a path, or a schema that is no text, stops an audit with a fault that is none of
the configuration. -/
theorem slips_escape : ∃ policy numbered encoded e, Policy.build [] = .ok policy ∧
    Pipeline.ofMapping (headline "composer_json" (.int 5)) = .ok numbered ∧
    Pipeline.ofMapping (headline "forti_schema" (.text "schema.json")) = .ok encoded ∧
    ∀ sink,
      (⟨policy, numbered, false, 7, []⟩ : Audit).run badSchema "/p" sink =
        .error (.notPath "int") ∧
      (⟨policy, encoded, false, 7, []⟩ : Audit).run badSchema "/p" sink = .error (.encoding e) := by
  let files := Pipeline.standard.package
  have policy : ∃ policy, Policy.build [] = .ok policy := by
    have built : (Policy.build []).isOk = true := by decide +kernel
    cases h : Policy.build [] with
    | ok policy => exact ⟨policy, rfl⟩
    | error f => rw [h] at built; cases built
  obtain ⟨policy, hpolicy⟩ := policy
  refine ⟨policy, { Pipeline.standard with package := { files with composer := .int 5 } },
    { Pipeline.standard with package := { files with schema := .text "schema.json" } },
    ⟨0, 1, 0xff, .invalidStart⟩, hpolicy, rfl, rfl, fun sink => ⟨?_, ?_⟩⟩
  · have noSchema : (⟨policy, { Pipeline.standard with
        package := { files with composer := .int 5 } }, false, 7, []⟩ : Audit).schemaOf badSchema
        ⟨1, ["p"]⟩ = .ok none := by cbv
    exact runWith_of_wantedRows_error badSchema_root noSchema rfl
  · exact runWith_of_schemaOf_error badSchema_root (by cbv)

end Audit

end PluginAudit
