import PluginAudit.Catalog.Report
import PluginAudit.Proofs.Templates

namespace PluginAudit

/-- Computations one after the other come to the result of each, or to the fault of one. -/
theorem mapM_cases {α β : Type} (f : α → Except Fault β) (xs : List α) :
    (∃ ys, xs.mapM f = .ok ys ∧ (∀ x ∈ xs, ∃ y, f x = .ok y) ∧ ∀ y ∈ ys, ∃ x ∈ xs, f x = .ok y) ∨
      ∃ e, xs.mapM f = .error e ∧ ∃ x ∈ xs, f x = .error e := by
  induction xs with
  | nil => exact .inl ⟨[], rfl, by simp, by simp⟩
  | cons x xs ih =>
    rw [List.mapM_cons]
    cases hx : f x with
    | error e => exact .inr ⟨e, rfl, x, List.mem_cons_self, hx⟩
    | ok y =>
      obtain ⟨ys, hys, hto, hfrom⟩ | ⟨e, he, x', hx', hfx'⟩ := ih
      · rw [hys]
        refine .inl ⟨y :: ys, rfl, ?_, ?_⟩
        · exact List.forall_mem_cons.2 ⟨⟨y, hx⟩, hto⟩
        · refine List.forall_mem_cons.2 ⟨⟨x, List.mem_cons_self, hx⟩, fun z hz => ?_⟩
          obtain ⟨x', hx', hfx'⟩ := hfrom z hz
          exact ⟨x', List.mem_cons_of_mem _ hx', hfx'⟩
      · rw [he]
        exact .inr ⟨e, rfl, x', List.mem_cons_of_mem _ hx', hfx'⟩

@[simp] theorem toString_text (s : String) : toString s = s := rfl

namespace Catalog

theorem exists_parts {e : String × CatalogEntry} (h : e ∈ entries) :
    ∃ parts, (∀ p ∈ parts, p.isSimple = true) ∧
      e.2.description.toList = Template.spelling parts := by
  have all : ∀ e ∈ entries, ∃ cs, e.2.description = String.ofList cs ∧
      Template.isSimple cs = true := by
    simp only [entries, discovery, lexical, namespaces, calls, callbacks, classes, state, returns,
      packages, List.forall_mem_append, List.forall_mem_cons, String.reduceAppend, List.not_mem_nil,
      false_implies, implies_true, and_true]
    and_intros
    -- Taking the text for a list of characters spares the evaluation its bytes.
    all_goals exact ⟨_, rfl, by decide +kernel⟩
  obtain ⟨cs, hcs, simple⟩ := all e h
  rw [hcs, String.toList_ofList]
  exact Template.exists_parts simple

/-- Types of failures, whose descriptions have no fields. -/
def fixedTypes : List String :=
  ["parse_error", "composer.exception", "config.schema", "config.exception", "hostconfig.error",
    "manifest.invalid", "route.invalid", "scanner.exception", "content.exception",
    "token.exception", "ast.exception"]

theorem no_field_of_fixed {type : String} {entry : CatalogEntry} (h : type ∈ fixedTypes)
    (known : entries.find? type = some entry) : '\x7b' ∉ entry.description.toList := by
  have all : (fixedTypes.all fun type =>
      (entries.find? type).all fun e => !e.description.toList.contains '\x7b') = true := by
    decide +kernel
  have own := List.all_eq_true.1 all type h
  rw [known] at own
  simpa using own

end Catalog

namespace Violation

/-- The fields of the record of every violation. -/
@[simp] def fields : List String := ["type", "severity", "file", "line", "snippet", "issue"]

/-- A violation's own data leave the fields of its record alone. -/
def Plain (v : Violation) : Prop :=
  ∀ e ∈ v.data, e.1 ∉ fields

/-- A plain violation of a catalogued type that says what the issue is, unless the description of
the type says it all. -/
structure Reportable (v : Violation) : Prop where
  catalogued : (Catalog.entries.find? v.type).isSome = true
  plain : v.Plain
  explained : v.issue ≠ "" ∨ v.type ∈ Catalog.fixedTypes

variable {v : Violation}

theorem Plain.find?_record (h : v.Plain) {key : String} (hkey : key ∈ fields) :
    v.record.find? key = (({ v with data := [] } : Violation).record).find? key := by
  unfold record
  dsimp only
  rw [Table.find?_foldl_put _ _ fun e he heq => h e he (heq ▸ hkey)]
  rfl

/-- The record of a violation has its fields, those that are empty left out. -/
structure KeepsFields (v : Violation) : Prop where
  type : v.record.find? "type" = some (.text v.type)
  severity : v.record.find? "severity" = some (.text v.severity.label)
  file : v.record.find? "file" = some (.text v.file)
  line : v.record.find? "line" = some (.ofNat v.line)
  snippet : v.record.find? "snippet" = if v.snippet = "" then none else some (.text v.snippet)
  issue : v.record.find? "issue" = if v.issue = "" then none else some (.text v.issue)

theorem Plain.keepsFields (h : v.Plain) : v.KeepsFields := by
  constructor
  all_goals
    rw [h.find?_record (by decide)]
    unfold record
    by_cases hsnippet : v.snippet = "" <;> by_cases hissue : v.issue = "" <;>
      simp [hsnippet, hissue, Table.find?]

/-- What is said of a violation if the description of its type has the given parts: the description
with all its fields filled, or the issue if there is one and a field has no value. -/
inductive Described (v : Violation) (parts : List Template.Part) : String → Prop where
  | filled {texts : List (List Char)}
      (all : parts.mapM (Template.Part.shown v.record) = some texts) :
      Described v parts (String.ofList texts.flatten)
  | issue {p : Template.Part} (part : p ∈ parts) (missing : p.shown v.record = none)
      (said : v.issue ≠ "") : Described v parts v.issue

end Violation

namespace Report

variable {v : Violation}

theorem textOf_issue (h : v.KeepsFields) : textOf v.record "issue" "" = v.issue := by
  rw [textOf, h.issue]
  split
  case isTrue hissue => rw [hissue]; rfl
  case isFalse => rfl

theorem describe_reportable (h : v.Reportable) {entry : CatalogEntry}
    (known : Catalog.entries.find? v.type = some entry) {parts : List Template.Part}
    (simple : ∀ p ∈ parts, p.isSimple = true)
    (written : entry.description.toList = Template.spelling parts) :
    ∃ s, describe entry v.issue v.record = .ok s ∧ v.Described parts s := by
  rw [describe, Template.fill_spelling simple written]
  cases hall : parts.mapM (Template.Part.shown v.record) with
  | some texts => exact ⟨_, rfl, .filled hall⟩
  | none =>
    obtain ⟨p, hp, missing⟩ := Template.exists_of_mapM_eq_none hall
    -- A description without fields would have been filled.
    have said : v.issue ≠ "" := by
      rcases h.explained with said | fixed
      · exact said
      · have noField := Catalog.no_field_of_fixed fixed known
        rw [written] at noField
        exact absurd missing (Template.shown_ne_none hp noField)
    refine ⟨v.issue, ?_, .issue hp missing said⟩
    simp [said]

/-- A report is made of every reportable violation, by the entry of its type. -/
theorem exists_described (h : v.Reportable) :
    ∃ entry parts r, Catalog.entries.find? v.type = some entry ∧
      (∀ p ∈ parts, p.isSimple = true) ∧
      entry.description.toList = Template.spelling parts ∧
      ofViolation v = .ok r ∧ v.Described parts r.description := by
  obtain ⟨entry, known⟩ := Option.isSome_iff_exists.1 h.catalogued
  obtain ⟨parts, simple, written⟩ := Catalog.exists_parts (Table.mem_of_find? known)
  obtain ⟨s, hs, said⟩ := describe_reportable h known simple written
  have kept := h.plain.keepsFields
  have hlookup : Catalog.lookup v.type = entry := by
    rw [Catalog.lookup, known]
  have htype : textOf v.record "type" "unknown" = v.type := by
    rw [textOf, kept.type]
    rfl
  have made : ∃ r, ofViolation v = .ok r ∧ r.description = s := by
    unfold ofViolation ofRecord
    dsimp only
    rw [htype, hlookup, textOf_issue kept, hs, kept.line]
    -- The line is a number, be it zero.
    simp only [bind, Except.bind, Option.getD_some]
    split
    case isTrue => exact ⟨_, rfl, rfl⟩
    case isFalse => exact ⟨_, rfl, rfl⟩
  obtain ⟨r, hr, rfl⟩ := made
  exact ⟨entry, parts, r, known, simple, written, hr, said⟩

theorem exists_of_all_reportable {log : List Violation} (h : ∀ v ∈ log, v.Reportable) :
    ∃ reports, log.mapM ofViolation = .ok reports := by
  obtain ⟨reports, hreports, -, -⟩ | ⟨e, -, v, hv, hfault⟩ := mapM_cases ofViolation log
  · exact ⟨reports, hreports⟩
  · obtain ⟨_, _, r, -, -, -, hr, -⟩ := exists_described (h v hv)
    rw [hr] at hfault
    cases hfault

end Report

end PluginAudit
