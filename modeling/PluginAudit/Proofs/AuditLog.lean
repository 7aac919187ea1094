import PluginAudit.Proofs.Yields
import Mathlib

namespace PluginAudit

/-- What an audit may rely on: a scan of a syntax tree finds the same whatever facts it is handed,
and the search for files closes none. -/
structure Workers.Proper (w : Workers) : Prop where
  afresh : ∀ graph c s scan, w.syntaxTree graph c s = .ok scan →
    ∀ facts, (scan facts).1 = (scan .empty).1
  opens : ∀ root found, w.discover root = .ok found →
    ∀ e ∈ found.2, (Note.event e).closing? = none

namespace Audit

open Run

variable (a : Audit) {w : Workers} {root : Path} {schema : Option Package.ConfigSchema}

/-- The violations of a file that could be parsed: those of each scanner that is on, or the one that
stands for its failure. -/
def scanRows (on : Validator → Bool) (file : String)
    (content tokens syntaxTree : Except Fault (List Violation)) : List Violation :=
  (if on .content then found "content.exception" file content else []) ++
  ((if on .token then found "token.exception" file tokens else []) ++
  (if on .syntaxTree then found "ast.exception" file syntaxTree else []))

/-- What the workers find in a file that could be parsed. -/
def workerRows (a : Audit) (w : Workers) (graph : Php.CallGraph) (c : Candidate) (s : Php.Script) :
    List Violation :=
  scanRows a.isOn c.path.text (w.content s) (w.tokens s)
    ((w.syntaxTree graph c s).map fun scan => (scan .empty).1)

/-- The block of a file in the log: its flags and, if it could be parsed, what is found in it. -/
def fileRows (limits : ScanLimits) (scan : Candidate → Php.Script → List Violation)
    (f : ScannedFile) : List Violation :=
  f.candidate.flagViolations limits ++ (f.script.toOption.map (scan f.candidate)).getD []

/-- A file that could be parsed is closed with the number of violations found in it. -/
def closing? (scan : Candidate → Php.Script → List Violation) (f : ScannedFile) :
    Option (String × Nat) :=
  f.script.toOption.map fun s => (f.candidate.path.text, (scan f.candidate s).length)

/-- The candidates with their scripts. -/
def readBy (w : Workers) (candidates : List Candidate) : List ScannedFile :=
  candidates.map fun c => ⟨c, w.parse c.path⟩

theorem yields_scanTree (hw : w.Proper) (graph : Php.CallGraph) (facts : Php.Facts)
    (c : Candidate) (s : Php.Script) :
    ∃ left, Yields (a.scanTree w graph facts c s) (.ok left)
      (if a.isOn .syntaxTree then found "ast.exception" c.path.text
        ((w.syntaxTree graph c s).map fun scan => (scan .empty).1) else []) [] := by
  unfold scanTree
  split
  case isFalse => exact ⟨_, yields_pure _⟩
  case isTrue =>
    have started := yields_event (.syntaxScan c.path.text)
    cases h : w.syntaxTree graph c s with
    | ok scan =>
      have scanned := (yields_recordAll (scan facts).1).returning (scan facts).2
      change ∃ left, Yields _ (.ok left) (scan .empty).1 []
      rw [← hw.afresh graph c s scan h facts]
      exact ⟨_, started.andThen scanned⟩
    | error e => exact ⟨_, started.andThen ((yields_record _).returning _)⟩

theorem yields_runScanners (hw : w.Proper) (graph : Php.CallGraph) (facts : Php.Facts)
    (c : Candidate) (s : Php.Script) :
    ∃ left, Yields (a.runScanners w graph facts c s) (.ok left) (a.workerRows w graph c s) [] := by
  obtain ⟨left, tree⟩ := yields_scanTree a hw graph facts c s
  have started := yields_event (.fileStarted c.path.text)
  have tokens := yields_recordAll (a.tokenRows w c s)
  have content := yields_recordAll (a.contentRows w c s)
  exact ⟨left, started.andThen (content.andThen (tokens.andThen tree))⟩

theorem yields_scanFile (hw : w.Proper) (graph : Php.CallGraph) (facts : Php.Facts)
    (c : Candidate) (s : Php.Script) :
    ∃ left, Yields (a.scanFile w graph facts c s) (.ok left) (a.workerRows w graph c s)
      [(c.path.text, (a.workerRows w graph c s).length)] := by
  obtain ⟨left, scanned⟩ := yields_runScanners a hw graph facts c s
  have done := yields_event (.fileDone c.path.text (a.workerRows w graph c s).length)
  have closed := scanned.counting.bind (f := closeFile c) (done.returning left)
  rw [List.append_nil] at closed
  exact ⟨left, closed⟩

/-- The blocks of the files follow one another. What one scan leaves to the next shows nowhere. -/
theorem yields_scanEach (hw : w.Proper) (graph : Php.CallGraph) (facts : Php.Facts)
    (files : List ScannedFile) :
    Yields (a.scanEach w graph facts files) (.ok ())
      (files.flatMap (fileRows a.policy.limits (a.workerRows w graph)))
      (files.filterMap (closing? (a.workerRows w graph))) := by
  induction files generalizing facts with
  | nil => exact yields_pure ()
  | cons f files ih =>
    obtain ⟨c, script⟩ := f
    have flags := yields_recordAll (c.flagViolations a.policy.limits)
    cases script with
    | error e =>
      simpa [scanEach, fileRows, closing?, Except.toOption, List.filterMap_cons]
        using flags.andThen (ih facts)
    | ok s =>
      obtain ⟨left, scanned⟩ := yields_scanFile a hw graph facts c s
      have rest := scanned.bind (f := fun left => a.scanEach w graph left files) (ih left)
      simpa [scanEach, fileRows, closing?, Except.toOption, List.filterMap_cons]
        using flags.andThen rest

theorem yields_parseAll (candidates : List Candidate) :
    Yields (parseAll w candidates) (.ok (readBy w candidates))
      ((readBy w candidates).filterMap ScannedFile.unparsed?) [] := by
  induction candidates with
  | nil => exact yields_pure []
  | cons c candidates ih =>
    let f : ScannedFile := ⟨c, w.parse c.path⟩
    have split : (f :: readBy w candidates).filterMap ScannedFile.unparsed? =
        f.unparsed?.toList ++ (readBy w candidates).filterMap ScannedFile.unparsed? := by
      cases h : f.unparsed? <;> simp [h]
    have rest := ih.bind (f := fun files => pure (f :: files)) (yields_pure _)
    rw [List.append_nil] at rest
    exact split ▸ (yields_recordAll f.unparsed?.toList).andThen rest

/-- What the scan of a directory comes to: the violations, the number of files that could be parsed,
and the files that are closed. -/
structure Account where
  rows : List Violation
  scanned : Nat
  closed : List (String × Nat)

/-- The account of files that were found: first what could not be parsed, then one block for each
file. -/
def accountOf (limits : ScanLimits) (scan : Candidate → Php.Script → List Violation)
    (files : List ScannedFile) : Account where
  rows := files.filterMap ScannedFile.unparsed? ++ files.flatMap (fileRows limits scan)
  scanned := (scripts files).length
  closed := files.filterMap (closing? scan)

/-- The account of a directory. Every scan is given the call graph of all files. -/
def account (a : Audit) (scan : Php.CallGraph → Candidate → Php.Script → List Violation)
    (w : Workers) (root : Path) : Account :=
  if a.isOn .fileScanner then
    match w.discover root with
    | .error f => ⟨[failure "scanner.exception" root.text f], 0, []⟩
    | .ok (candidates, _) =>
      let files := readBy w candidates
      accountOf a.policy.limits (scan (a.graphOf files)) files
  else ⟨[], 0, []⟩

theorem yields_found (hw : w.Proper) (candidates : List Candidate) :
    let files := readBy w candidates
    let own := accountOf a.policy.limits (a.workerRows w (a.graphOf files)) files
    Yields (do let files ← parseAll w candidates; a.scanAll w files) (.ok own.scanned) own.rows
      own.closed :=
  (yields_parseAll candidates).bind (f := a.scanAll w)
    ((yields_scanEach a hw (a.graphOf (readBy w candidates)) .empty _).returning _)

theorem yields_scanFiles (hw : w.Proper) (root : Path) :
    Yields (a.scanFiles w root) (.ok (a.account (a.workerRows w) w root).scanned)
      (a.account (a.workerRows w) w root).rows (a.account (a.workerRows w) w root).closed := by
  have started := yields_event (.scanStarted root.text)
  unfold scanFiles account
  cases hon : a.isOn .fileScanner with
  | false => exact started.andThen (yields_pure 0)
  | true =>
    cases h : w.discover root with
    | error f => exact started.andThen ((yields_record _).returning 0)
    | ok found =>
      obtain ⟨candidates, events⟩ := found
      have quiet : events.flatMap (fun e => (Note.event e).closing?.toList) = [] :=
        List.flatMap_eq_nil_iff.2 fun e he => by rw [hw.opens root _ h e he, Option.toList_none]
      have silent : events.flatMap (fun _ => ([] : List Violation)) = [] :=
        List.flatMap_eq_nil_iff.2 fun _ _ => rfl
      have told := yields_forM (g := fun e => tell (.event e)) _ _ events yields_event
      rw [quiet, silent] at told
      exact started.andThen (told.andThen (yields_found a hw candidates))

/-- What a check of the package finds if it is asked for. -/
def wantedRows (a : Audit) (w : Workers) (root : Path) (schema : Option Package.ConfigSchema)
    (check : PackageCheck) : Except Fault (List Violation) :=
  if a.wants schema check then a.packageRows w root schema check else .ok []

theorem yields_checkPackageFile (w : Workers) (root : Path) (schema : Option Package.ConfigSchema)
    (check : PackageCheck) :
    Yields (a.checkPackageFile w root schema check)
      ((a.wantedRows w root schema check).map fun _ => ())
      ((a.wantedRows w root schema check).toOption.getD []) [] := by
  unfold checkPackageFile wantedRows
  split
  case isFalse => exact yields_pure ()
  case isTrue =>
    have started := yields_event (.packageCheck check)
    have rows := yields_orFault (a.packageRows w root schema check)
    cases h : a.packageRows w root schema check with
    | error e => exact started.andThen (h ▸ rows).bind_error
    | ok vs => exact started.andThen ((h ▸ rows).bind (f := recordAll) (yields_recordAll vs))

/-- The checks follow one another until one cannot be done. -/
theorem yields_checks (w : Workers) (root : Path) (schema : Option Package.ConfigSchema)
    (checks : List PackageCheck) :
    ∃ rows, Yields (checks.forM (a.checkPackageFile w root schema))
        ((checks.mapM (a.wantedRows w root schema)).map fun _ => ()) rows [] ∧
      ∀ head, checks.mapM (a.wantedRows w root schema) = .ok head → rows = head.flatten := by
  induction checks with
  | nil => exact ⟨[], yields_pure (), by rintro _ ⟨⟩; rfl⟩
  | cons check checks ih =>
    obtain ⟨rows, hrows, hflat⟩ := ih
    have first := a.yields_checkPackageFile w root schema check
    rw [List.mapM_cons]
    cases hc : a.wantedRows w root schema check with
    | error e =>
      rw [hc] at first
      exact ⟨[], first.bind_error, by rintro _ ⟨⟩⟩
    | ok vs =>
      rw [hc] at first
      have both := first.andThen hrows
      cases hm : checks.mapM (a.wantedRows w root schema) with
      | error e =>
        rw [hm] at both
        exact ⟨_, both, by rintro _ ⟨⟩⟩
      | ok rest =>
        rw [hm] at both
        refine ⟨vs ++ rows, both, ?_⟩
        rintro _ ⟨⟩
        rw [List.flatten_cons, hflat rest hm]

/-- What an audit comes to that can do all checks of the package. -/
theorem yields_checkAll (hw : w.Proper) {head : List (List Violation)}
    (h : PackageCheck.all.mapM (a.wantedRows w root schema) = .ok head) :
    Yields (a.checkAll w root schema) (.ok (a.account (a.workerRows w) w root).scanned)
      (head.flatten ++ (a.account (a.workerRows w) w root).rows)
      (a.account (a.workerRows w) w root).closed := by
  obtain ⟨rows, checks, hflat⟩ := a.yields_checks w root schema PackageCheck.all
  rw [h] at checks
  rw [← hflat head h]
  have package := (yields_event .packageChecks).andThen checks
  exact (yields_event (.started root.text)).andThen (package.andThen (a.yields_scanFiles hw root))

theorem checkAll_error {e : Fault}
    (h : PackageCheck.all.mapM (a.wantedRows w root schema) = .error e) :
    ∃ rows, Yields (a.checkAll w root schema) (.error e) rows [] := by
  obtain ⟨rows, checks, -⟩ := a.yields_checks w root schema PackageCheck.all
  rw [h] at checks
  have package := (yields_event .packageChecks).andThen checks
  exact ⟨_, (yields_event (.started root.text)).andThen package.bind_error⟩

/-- The note that ends an audit. -/
def finalNote (a : Audit) (root : Path) (files : Nat) (log : List Violation) : Note :=
  let verdict := a.pipeline.failPolicy.evaluate root.text log
  .event (.finished verdict.reason files log.length verdict.shouldFail)

/-- The end of an audit reads the log as it stands, and tells one more note. -/
theorem resume_finish (root : Path) (files : Nat) (sink : Sink) (p : Progress) :
    ((a.finish root files).resume sink p).1 =
      (p.log.toList.mapM Report.ofViolation).map fun reports =>
        { filesScanned := files
          verdict := a.pipeline.failPolicy.evaluate root.text p.log.toList
          reports := reports
          log := p.log.toList
          trace := p.told.toList ++ [a.finalNote root files p.log.toList] } := by
  simp only [finish, resume_bind, resume_get, resume_orFault]
  cases p.log.toList.mapM Report.ofViolation with
  | error e => rfl
  | ok rs => simp [resume_tell, finalNote, Except.map]

/-- What a summary says of an audit, by what the checks of the package found and the account of the
files. -/
structure Account.Explains (files : Account) (a : Audit) (root : Path)
    (head : List (List Violation)) (s : Summary) : Prop where
  log : s.log = head.flatten ++ files.rows
  scanned : s.filesScanned = files.scanned
  verdict : s.verdict = a.pipeline.failPolicy.evaluate root.text s.log
  reports : s.log.mapM Report.ofViolation = .ok s.reports
  told : s.trace.filterMap Note.violation? = s.log
  closed : s.trace.filterMap Note.closing? = files.closed

/-- An audit that ends well found its directory and its schema, and could do the checks of the
package. -/
theorem runWith_ok {via : Access} {given : String} {sink : Sink} {s : Summary}
    (h : a.runWith w via given sink = .ok s) :
    ∃ root schema head, rootOf via given = .ok root ∧ a.schemaOf via root = .ok schema ∧
      PackageCheck.all.mapM (a.wantedRows w root schema) = .ok head := by
  change ((a.auditAll w via given).resume sink ⟨#[], #[]⟩).1 = .ok s at h
  simp only [auditAll, resume_bind, resume_orFault] at h
  cases hroot : rootOf via given with
  | error e => rw [hroot] at h; cases h
  | ok root =>
    simp only [hroot] at h
    cases hschema : a.schemaOf via root with
    | error e => rw [hschema] at h; cases h
    | ok schema =>
      simp only [hschema] at h
      cases hhead : PackageCheck.all.mapM (a.wantedRows w root schema) with
      | ok head => exact ⟨root, schema, head, rfl, hschema, hhead⟩
      | error e =>
        obtain ⟨_, _, _, _, failed⟩ := a.checkAll_error hhead
        rw [failed] at h
        cases h

/-- Such an audit ends with what its log gives, whoever listens. -/
theorem runWith_eq (hw : w.Proper) {via : Access} {given : String} {head : List (List Violation)}
    (hroot : rootOf via given = .ok root) (hschema : a.schemaOf via root = .ok schema)
    (hhead : PackageCheck.all.mapM (a.wantedRows w root schema) = .ok head) :
    let files := a.account (a.workerRows w) w root
    let log := head.flatten ++ files.rows
    ∃ notes : List Note, notes.filterMap Note.violation? = log ∧
      notes.filterMap Note.closing? = files.closed ∧
      ∀ sink, a.runWith w via given sink = (log.mapM Report.ofViolation).map fun reports =>
        { filesScanned := files.scanned
          verdict := a.pipeline.failPolicy.evaluate root.text log
          reports := reports
          log := log
          trace := notes ++ [a.finalNote root files.scanned log] } := by
  obtain ⟨notes, hlog, hclosed, checked⟩ := a.yields_checkAll hw hhead
  refine ⟨notes, hlog, hclosed, fun sink => ?_⟩
  change ((a.auditAll w via given).resume sink ⟨#[], #[]⟩).1 = _
  simp only [auditAll, resume_bind, resume_orFault, hroot, hschema, checked, resume_finish]
  simp [Progress.after, hlog]

theorem runWith_succeeds (hw : w.Proper) {via : Access} {given : String}
    {head : List (List Violation)} {reports : List Report} (hroot : rootOf via given = .ok root)
    (hschema : a.schemaOf via root = .ok schema)
    (hhead : PackageCheck.all.mapM (a.wantedRows w root schema) = .ok head)
    (hreports : (head.flatten ++ (a.account (a.workerRows w) w root).rows).mapM
      Report.ofViolation = .ok reports) (sink : Sink) :
    ∃ s, a.runWith w via given sink = .ok s := by
  obtain ⟨notes, -, -, hrun⟩ := a.runWith_eq hw hroot hschema hhead
  exact ⟨_, by rw [hrun, hreports]; rfl⟩

theorem runWith_explained (hw : w.Proper) {via : Access} {given : String} {sink : Sink}
    {s : Summary} (h : a.runWith w via given sink = .ok s) :
    ∃ root schema head, rootOf via given = .ok root ∧ a.schemaOf via root = .ok schema ∧
      PackageCheck.all.mapM (a.wantedRows w root schema) = .ok head ∧
      (a.account (a.workerRows w) w root).Explains a root head s ∧
      ∀ other, a.runWith w via given other = .ok s := by
  obtain ⟨root, schema, head, hroot, hschema, hhead⟩ := a.runWith_ok h
  obtain ⟨notes, hlog, hclosed, hrun⟩ := a.runWith_eq hw hroot hschema hhead
  refine ⟨root, schema, head, hroot, hschema, hhead, ?_, fun other => ?_⟩
  · rw [hrun] at h
    cases hreports : (head.flatten ++ (a.account (a.workerRows w) w root).rows).mapM
        Report.ofViolation with
    | error e => rw [hreports] at h; cases h
    | ok reports =>
      rw [hreports] at h
      cases h
      exact {
        log := rfl
        scanned := rfl
        verdict := rfl
        reports := hreports
        told := by rw [List.filterMap_append, hlog]; exact List.append_nil _
        closed := by rw [List.filterMap_append, hclosed]; exact List.append_nil _ }
  · rw [hrun other, ← hrun sink, h]

end Audit

/-- Where the workers of an audit fail instead of doing their work, and what is left of the facts by
a scan that fails. -/
structure Failures where
  dependencies : Path → Option Fault
  config : Path → Option Fault
  hostConfig : Path → Option Fault
  manifest : Path → Option Fault
  routes : Package.RouteRegistry → Path → Option (Package.RouteRegistry × Fault)
  discover : Path → Option Fault
  parse : Path → Option Fault
  content : Php.Script → Option Fault
  tokens : Php.Script → Option Fault
  syntaxTree : Php.Script → Option Fault
  leftover : Php.Script → Php.Facts → Php.Facts

def Failures.none : Failures where
  dependencies _ := .none
  config _ := .none
  hostConfig _ := .none
  manifest _ := .none
  routes _ _ := .none
  discover _ := .none
  parse _ := .none
  content _ := .none
  tokens _ := .none
  syntaxTree _ := .none
  leftover _ facts := facts

/-- Workers that fail at some places. -/
def Workers.failing (w : Workers) (fs : Failures) : Workers where
  dependencies path := (fs.dependencies path).elim (w.dependencies path) .error
  config schema root := (fs.config root).elim (w.config schema root) .error
  hostConfig path := (fs.hostConfig path).elim (w.hostConfig path) fun f => .error (.failed f)
  manifest path := (fs.manifest path).elim (w.manifest path) fun f => .error (.failed f)
  routes registry path :=
    (fs.routes registry path).elim (w.routes registry path) fun (left, f) =>
      (left, .error (.failed f))
  discover root := (fs.discover root).elim (w.discover root) .error
  parse path := (fs.parse path).elim (w.parse path) .error
  content s := (fs.content s).elim (w.content s) .error
  tokens s := (fs.tokens s).elim (w.tokens s) .error
  syntaxTree graph c s := (fs.syntaxTree s).elim (w.syntaxTree graph c s) .error
  leftover := fs.leftover

theorem Workers.Proper.failing {w : Workers} (hw : w.Proper) (fs : Failures) :
    (w.failing fs).Proper where
  afresh graph c s scan h := by
    cases hf : fs.syntaxTree s with
    | none => exact hw.afresh graph c s scan (by simpa [Workers.failing, hf] using h)
    | some f => simp [Workers.failing, hf] at h
  opens root found h := by
    cases hf : fs.discover root with
    | none => exact hw.opens root found (by simpa [Workers.failing, hf] using h)
    | some f => simp [Workers.failing, hf] at h

namespace Audit

variable (a : Audit) (t : FileTree)

theorem run_eq_runWith_failing_none (given : String) (sink : Sink) :
    a.run t given sink = a.runWith ((a.workers t).failing .none) t given sink := rfl

/-- The facts are cleared before each scan, and discovery tells only of files left out and of their
number. -/
theorem workers_proper : (a.workers t).Proper where
  afresh graph c s scan h facts := by
    cases h
    rfl
  opens root found h e he := by
    change Discovery.search a.policy.limits a.webContext t root = .ok found at h
    unfold Discovery.search at h
    dsimp only at h
    split at h
    case isTrue => cases h
    cases h
    simp only [Discovery.discover, List.mem_append, List.mem_filterMap, List.mem_singleton] at he
    obtain ⟨⟨f, d⟩, -, hd⟩ | rfl := he
    · cases d with
      | ignored why =>
        cases hd
        rfl
      | skipped => cases hd
      | chosen c => cases hd
    · rfl

/-- What is found in a file that could be parsed, and where its scanners fail. Nothing else about
the audit counts. -/
def scannerRows (policy : Policy) (tokens : List String) (on : Validator → Bool) (fs : Failures)
    (graph : Php.CallGraph) (c : Candidate) (s : Php.Script) : List Violation :=
  scanRows on c.path.text
    ((fs.content s).elim
      (.ok (Lines.scan (.ofPolicy policy none) s.path (Text.decodeIgnoring s.source.bytes))) .error)
    ((fs.tokens s).elim (.ok (s.scanTokens (Php.unwantedFunctions policy tokens))) .error)
    ((fs.syntaxTree s).elim
      (.ok (Php.scan policy graph s (some c.extension) (some c.size))) .error)

theorem workerRows_failing (fs : Failures) :
    a.workerRows ((a.workers t).failing fs) =
      scannerRows a.policy a.pipeline.tokens a.isOn fs := by
  funext graph c s
  have tree : (((a.workers t).failing fs).syntaxTree graph c s).map (fun scan => (scan .empty).1) =
      (fs.syntaxTree s).elim
        (.ok (Php.scan a.policy graph s (some c.extension) (some c.size))) .error := by
    change Except.map _ ((fs.syntaxTree s).elim _ _) = _
    cases fs.syntaxTree s <;> rfl
  rw [workerRows, tree]
  rfl

/-- The log of an audit, whatever fails and whoever listens: what the checks of the package found
that were asked for, then what the scan of the files comes to. -/
theorem summary_explained (fs : Failures) (given : String) (sink : Sink) (s : Summary)
    (h : a.runWith ((a.workers t).failing fs) t given sink = .ok s) :
    let w := (a.workers t).failing fs
    let scan := scannerRows a.policy a.pipeline.tokens a.isOn fs
    ∃ root schema head, rootOf t given = .ok root ∧ a.schemaOf t root = .ok schema ∧
      PackageCheck.all.mapM (a.wantedRows w root schema) = .ok head ∧
      (a.account scan w root).Explains a root head s ∧
      ∀ other, a.runWith w t given other = .ok s := by
  have explained := a.runWith_explained ((a.workers_proper t).failing fs) h
  rwa [workerRows_failing] at explained

/-- An audit of packages and lines only. -/
def lineAudit : Audit where
  policy := { (default : Policy) with
    limits := { (default : ScanLimits) with phpExtensions := ["php"] } }
  pipeline := .standard
  webContext := false
  maxDepth := 3
  ignored := [.token, .syntaxTree]

/-- A directory with one empty script. -/
def onePage : FileTree :=
  ⟨.dir [("p", .dir [("a.php", .file ⟨#[]⟩)])], Path.ofText "/"⟩

def page : Candidate :=
  ⟨⟨1, ["p", "a.php"]⟩, "php", 0, [], true⟩

def contentFails : Failures :=
  { Failures.none with content := fun _ => some .notMapping }

abbrev onePageWorkers : Workers :=
  (lineAudit.workers onePage).failing contentFails

def missingManifest : Violation :=
  ⟨"composer.composer_file_missing", .medium, "/p/composer.json", 0, "",
    "composer.json not found", []⟩

theorem onePage_root : rootOf onePage "/p" = .ok ⟨1, ["p"]⟩ := by cbv

theorem onePage_schema : lineAudit.schemaOf onePage ⟨1, ["p"]⟩ = .ok none := by cbv

theorem onePage_head :
    PackageCheck.all.mapM (lineAudit.wantedRows onePageWorkers ⟨1, ["p"]⟩ none) =
      .ok [[missingManifest], [], [], [], []] := by
  cbv

/-- The page is parsed, and its block is the failure of the one scanner that is on. -/
theorem onePage_rows :
    (lineAudit.account (scannerRows lineAudit.policy lineAudit.pipeline.tokens lineAudit.isOn
      contentFails) onePageWorkers ⟨1, ["p"]⟩).rows =
        [failure "content.exception" "/p/a.php" .notMapping] := by
  have on : lineAudit.isOn .fileScanner = true := rfl
  have found : onePageWorkers.discover ⟨1, ["p"]⟩ = .ok ([page], [.filesFound 1]) := by cbv
  have read : onePage.read page.path = .ok ⟨#[]⟩ := by cbv
  have parsed : onePageWorkers.parse page.path =
      .ok (Php.Script.ofBytes page.path.text ⟨#[]⟩) := by
    change (onePage.read page.path).map _ = _
    rw [read]
    rfl
  rw [account, if_pos on, found]
  change (accountOf _ _ [⟨page, onePageWorkers.parse page.path⟩]).rows = _
  rw [parsed]
  rfl

theorem onePage_reports : ∃ reports,
    [missingManifest, failure "content.exception" "/p/a.php" .notMapping].mapM Report.ofViolation =
      .ok reports := by
  have done : ([missingManifest, failure "content.exception" "/p/a.php" .notMapping].mapM
      Report.ofViolation).isOk = true := by decide +kernel
  cases h : [missingManifest, failure "content.exception" "/p/a.php" .notMapping].mapM
      Report.ofViolation with
  | ok reports => exact ⟨reports, rfl⟩
  | error e => rw [h] at done; cases done

/-- A scanner that fails and a sink that always fails do not stop the audit. -/
theorem scanner_failure_explained :
    ∃ s, lineAudit.runWith onePageWorkers onePage "/p" (fun _ _ => some .yaml) = .ok s ∧
      s.log = [missingManifest, failure "content.exception" "/p/a.php" .notMapping] ∧
      ∀ other, lineAudit.runWith onePageWorkers onePage "/p" other = .ok s := by
  obtain ⟨reports, hreports⟩ := onePage_reports
  have rows := onePage_rows
  rw [← workerRows_failing lineAudit onePage] at rows
  obtain ⟨s, h⟩ := lineAudit.runWith_succeeds ((workers_proper lineAudit onePage).failing _)
    onePage_root onePage_schema onePage_head (by rw [rows]; exact hreports) fun _ _ => some .yaml
  obtain ⟨root, schema, head, hroot, hschema, hhead, explained, others⟩ :=
    lineAudit.summary_explained onePage contentFails "/p" (fun _ _ => some .yaml) s h
  cases onePage_root.symm.trans hroot
  cases onePage_schema.symm.trans hschema
  cases onePage_head.symm.trans hhead
  refine ⟨s, h, ?_, others⟩
  rw [explained.log, onePage_rows]
  rfl

end Audit
end PluginAudit
