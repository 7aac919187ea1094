import PluginAudit.Proofs.ReportableRows

namespace PluginAudit

/-- A violation that is presented in full: its own data leave the fields of its record alone, its
type has an entry, and a report is made of it, whose description is that of the entry with every
field filled, or else the issue. -/
structure Violation.Presented (v : Violation) : Prop where
  apart : ∀ e ∈ v.data, e.1 ∉ fields
  kept : v.KeepsFields
  reported : ∃ entry parts r, Catalog.entries.find? v.type = some entry ∧
    (∀ p ∈ parts, p.isSimple = true) ∧ entry.description.toList = Template.spelling parts ∧
    Report.ofViolation v = .ok r ∧ v.Described parts r.description

theorem Violation.Reportable.presented {v : Violation} (h : v.Reportable) : v.Presented :=
  ⟨h.plain, h.plain.keepsFields, Report.exists_described h⟩

/-- A field without a value leaves the issue to be said. -/
example : (Report.ofViolation ⟨"backdoor_variable_function_call", .high, "a.php", 2, "",
    "Function call through array element $f[0]", []⟩).toOption.map Report.description =
      some "Function call through array element $f[0]" := by
  decide +kernel

namespace Run

variable {α β : Type} {P : Violation → Prop} {m : Run α} {f : α → Run β} {r : Except Fault α}
  {rows : List Violation} {closed : List (String × Nat)}

/-- Whatever a part of an audit adds to the log has a property. -/
def Adds (P : Violation → Prop) (m : Run α) : Prop :=
  ∀ sink p, ∀ v ∈ (m.resume sink p).2.log, v ∈ p.log ∨ P v

theorem Yields.adds (h : Yields m r rows closed) (each : ∀ v ∈ rows, P v) : Adds P m := by
  obtain ⟨notes, rfl, -, hrun⟩ := h
  intro sink p v hv
  rw [hrun] at hv
  rcases Array.mem_append.1 hv with hv | hv
  · exact .inl hv
  · exact .inr (each v (List.mem_toArray.1 hv))

theorem Yields.adds_nothing (h : Yields m r [] closed) : Adds P m :=
  h.adds (by simp)

theorem adds_get : Adds P (get : Run Progress) := by
  intro sink p v hv
  exact .inl hv

/-- A part that follows another goes on with its log, unless that ends with a fault. -/
theorem Adds.bind (hm : Adds P m) (hf : ∀ x, Adds P (f x)) : Adds P (m >>= f) := by
  intro sink p v hv
  have first := hm sink p
  rw [resume_bind] at hv
  cases hend : m.resume sink p with
  | mk outcome q =>
    rw [hend] at hv first
    cases outcome with
    | error e => exact first v hv
    | ok x =>
      rcases hf x sink q v hv with hq | hP
      · exact first v hq
      · exact .inr hP

theorem Adds.forM {g : β → Run Unit} (xs : List β) (h : ∀ x, Adds P (g x)) :
    Adds P (xs.forM g) := by
  induction xs with
  | nil => exact (yields_pure ()).adds_nothing
  | cons x xs ih => exact (h x).bind fun _ => ih

theorem Adds.of_mem_log (h : Adds P m) {sink : Sink} {v : Violation}
    (hv : v ∈ (m.exec sink).2.log) : P v := by
  rcases h sink ⟨#[], #[]⟩ v hv with hv | hP
  · exact absurd hv (Array.not_mem_empty v)
  · exact hP

/-- What a run ends with that does one part after another is what the last ends with. -/
theorem exists_resume_of_bind {sink : Sink} {p q : Progress} {y : β}
    (h : (m >>= f).resume sink p = (.ok y, q)) :
    ∃ x p', (f x).resume sink p' = (.ok y, q) := by
  rw [resume_bind] at h
  cases hend : m.resume sink p with
  | mk outcome p' =>
    rw [hend] at h
    cases outcome with
    | error e => cases h
    | ok x => exact ⟨x, p', h⟩

end Run

namespace Audit

open Run

variable {a : Audit} {w : Workers}

theorem adds_checkPackageFile (hw : w.Reporting) (root : Path)
    (schema : Option Package.ConfigSchema) (check : PackageCheck) :
    Adds Violation.Reportable (a.checkPackageFile w root schema check) := by
  apply (a.yields_checkPackageFile w root schema check).adds
  intro v hv
  cases hvs : a.wantedRows w root schema check with
  | error e =>
    rw [hvs] at hv
    cases hv
  | ok vs =>
    rw [hvs] at hv
    exact reportable_wantedRows hw hvs hv

theorem adds_scanFiles (hw : w.Reporting) (proper : w.Proper) (root : Path) :
    Adds Violation.Reportable (a.scanFiles w root) :=
  (a.yields_scanFiles proper root).adds fun _ => reportable_account hw

theorem adds_checkPackage (hw : w.Reporting) (root : Path) (schema : Option Package.ConfigSchema) :
    Adds Violation.Reportable (a.checkPackage w root schema) := by
  apply (yields_event _).adds_nothing.bind
  intro _
  exact .forM PackageCheck.all (adds_checkPackageFile hw root schema)

theorem adds_checkAll (hw : w.Reporting) (proper : w.Proper) (root : Path)
    (schema : Option Package.ConfigSchema) :
    Adds Violation.Reportable (a.checkAll w root schema) := by
  apply (yields_event _).adds_nothing.bind
  intro _
  apply (adds_checkPackage hw root schema).bind
  intro _
  exact adds_scanFiles hw proper root

theorem adds_finish {P : Violation → Prop} (root : Path) (files : Nat) :
    Adds P (a.finish root files) := by
  unfold finish
  apply adds_get.bind
  intro p
  apply (yields_orFault _).adds_nothing.bind
  intro reports
  apply (yields_event _).adds_nothing.bind
  intro _
  apply adds_get.bind
  intro q
  exact (yields_pure _).adds_nothing

theorem adds_auditAll (hw : w.Reporting) (proper : w.Proper) (via : Access) (given : String) :
    Adds Violation.Reportable (a.auditAll w via given) := by
  apply (yields_orFault _).adds_nothing.bind
  intro root
  apply (yields_orFault _).adds_nothing.bind
  intro schema
  apply (adds_checkAll hw proper root schema).bind
  intro files
  exact adds_finish root files

theorem adds_auditFiles (hw : w.Reporting) (proper : w.Proper) (via : Access) (given : String) :
    Adds Violation.Reportable (a.auditFiles w via given) := by
  apply (yields_orFault _).adds_nothing.bind
  intro root
  apply (adds_scanFiles hw proper root).bind
  intro files
  exact adds_finish root files

theorem log_of_finish {root : Path} {files : Nat} {sink : Sink} {p q : Progress} {s : Summary}
    (h : (a.finish root files).resume sink p = (.ok s, q)) : s.log = q.log.toList := by
  simp only [finish, resume_bind, resume_get, resume_orFault, resume_tell] at h
  cases hreports : p.log.toList.mapM Report.ofViolation with
  | error e =>
    rw [hreports] at h
    cases h
  | ok reports =>
    rw [hreports] at h
    cases h
    rfl

theorem log_of_auditAll {via : Access} {given : String} {sink : Sink} {p q : Progress}
    {s : Summary} (h : (a.auditAll w via given).resume sink p = (.ok s, q)) :
    s.log = q.log.toList := by
  obtain ⟨root, _, h⟩ := exists_resume_of_bind h
  obtain ⟨schema, _, h⟩ := exists_resume_of_bind h
  obtain ⟨files, _, h⟩ := exists_resume_of_bind h
  exact log_of_finish h

theorem log_of_auditFiles {via : Access} {given : String} {sink : Sink} {p q : Progress}
    {s : Summary} (h : (a.auditFiles w via given).resume sink p = (.ok s, q)) :
    s.log = q.log.toList := by
  obtain ⟨root, _, h⟩ := exists_resume_of_bind h
  obtain ⟨files, _, h⟩ := exists_resume_of_bind h
  exact log_of_finish h

/-- Every violation in the log of an audit, or of a scan alone, is presented in full, whatever
fails, whoever listens and however it ends; and what is told of the audit at its end is this log. -/
theorem log_presented (a : Audit) (t : FileTree) (fs : Failures) (given : String) (sink : Sink) :
    let w := (a.workers t).failing fs
    let audit := (a.auditAll w t given).exec sink
    let scan := (a.auditFiles w t given).exec sink
    (∀ v ∈ audit.2.log, v.Presented) ∧ (∀ v ∈ scan.2.log, v.Presented) ∧
      (∀ s, audit.1 = .ok s → s.log = audit.2.log.toList) ∧
      ∀ s, scan.1 = .ok s → s.log = scan.2.log.toList := by
  have reporting := (a.workers_reporting t).failing fs
  have proper := (a.workers_proper t).failing fs
  refine ⟨?_, ?_, ?_, ?_⟩
  · intro v hv
    have reportable := (adds_auditAll reporting proper t given).of_mem_log hv
    exact reportable.presented
  · intro v hv
    have reportable := (adds_auditFiles reporting proper t given).of_mem_log hv
    exact reportable.presented
  · intro s hs
    exact log_of_auditAll (Prod.ext hs rfl)
  · intro s hs
    exact log_of_auditFiles (Prod.ext hs rfl)

theorem missing_manifest_presented :
    ∃ s, lineAudit.runWith onePageWorkers onePage "/p" = .ok s ∧ missingManifest ∈ s.log ∧
      missingManifest.Presented := by
  obtain ⟨reports, hreports⟩ := onePage_reports
  have rows := onePage_rows
  rw [← workerRows_failing lineAudit onePage] at rows
  have proper := (workers_proper lineAudit onePage).failing contentFails
  obtain ⟨notes, -, -, hrun⟩ :=
    lineAudit.runWith_eq proper onePage_root onePage_schema onePage_head
  have ends := hrun Sink.silent
  rw [rows] at ends
  change lineAudit.runWith onePageWorkers onePage "/p" = Except.map _
    ([missingManifest, failure "content.exception" "/p/a.php" .notMapping].mapM _) at ends
  rw [hreports] at ends
  obtain ⟨presented, -, logged, -⟩ :=
    log_presented lineAudit onePage contentFails "/p" Sink.silent
  have found : missingManifest ∈
      [missingManifest, failure "content.exception" "/p/a.php" .notMapping] :=
    List.mem_cons_self
  refine ⟨_, ends, found, presented _ ?_⟩
  rw [← Array.mem_toList_iff, ← logged _ ends]
  exact found

end Audit
end PluginAudit
