import PluginAudit.Proofs.Separators
import PluginAudit.Proofs.Verdicts

namespace PluginAudit

namespace Text

theorem afterHead?_eq_some_iff {s head rest : String} :
    afterHead? s head = some rest ↔ s = head ++ rest := by
  simp only [afterHead?, Option.map_eq_some_iff, List.isPrefixOf?_eq_some_iff_append_eq]
  constructor
  · rintro ⟨cs, hcs, rfl⟩
    rw [← String.toList_inj, ← hcs, String.toList_append, String.toList_ofList]
  · rintro rfl
    exact ⟨rest.toList, by rw [String.toList_append], String.ofList_toList⟩

end Text

namespace FailPolicy

variable {p : FailPolicy} {root file rest gate : String} {log : List Violation}

def isSeparator (c : Char) : Bool :=
  c == '/' || c == '\\'

/-- A file is a directory, or its path goes on with a separator after the directory's. -/
def LiesUnder (root file : String) : Prop :=
  file = root ∨ ∃ separator rest, isSeparator separator = true ∧
    file = root ++ String.ofList (separator :: rest)

/-- The name of a file goes on after that of a directory: one is beside the other. -/
structure Beside (root file rest : String) : Prop where
  rooted : root ≠ ""
  text : file = root ++ rest
  goesOn : ∃ c ∈ rest.toList.head?, isSeparator c = false

def Matches (gate path : String) : Prop :=
  (Text.Glob.ofText gate).matchesText (Text.replaceChar '\\' '/' path) = true

/-- A file beside a directory falls under a gate that only what follows the directory's name
matches. -/
def Mistaken (p : FailPolicy) (root file : String) : Prop :=
  ∃ rest, Beside root file rest ∧ ∃ gate,
    IsFirst (fun gate => Matches gate file ∨ Matches gate rest ∨ Matches gate ("./" ++ rest))
      p.fileGates gate ∧ ¬ Matches gate file

section Candidates

theorem Beside.file_ne (h : Beside root file rest) : file ≠ "" := by
  rw [h.text]
  intro hempty
  exact h.rooted (String.append_eq_empty_iff.1 hempty).1

theorem candidates_none (file : String) : candidates "" file = [Text.replaceChar '\\' '/' file] :=
  rfl

theorem Beside.candidates_eq (h : Beside root file rest) :
    candidates root file = [Text.replaceChar '\\' '/' file, Text.replaceChar '\\' '/' rest,
      "./" ++ Text.replaceChar '\\' '/' rest] := by
  obtain ⟨c, hc, hseparator⟩ := h.goesOn
  have htrim : Text.trimLeft isSeparator rest = rest := by
    rw [Text.trimLeft, Text.dropWhile_of_head, String.ofList_toList]
    intro d hd
    rwa [Option.mem_unique hd hc]
  have hafter := Text.afterHead?_eq_some_iff.2 h.text
  simp only [candidates, beq_eq_false_iff_ne.2 h.rooted, hafter, Bool.false_eq_true, if_false]
  rw [show (fun c => c == '/' || c == '\\') = isSeparator from rfl, htrim]

theorem candidates_of_apart (h : ∀ rest, file ≠ root ++ rest) :
    candidates root file = candidates "" file := by
  have hafter : Text.afterHead? file root = none :=
    Option.eq_none_iff_forall_ne_some.2 fun rest hrest => h rest (Text.afterHead?_eq_some_iff.1 hrest)
  rw [candidates_none, candidates, hafter]
  split <;> simp_all

/-- A file that does not lie under a directory is beside it, or the directory does not bear on it. -/
theorem beside_or_candidates_eq (h : ¬ LiesUnder root file) :
    (∃ rest, Beside root file rest) ∨ candidates root file = candidates "" file := by
  by_cases hroot : root = ""
  · exact .inr (by rw [hroot])
  by_cases hrest : ∃ rest, file = root ++ rest
  · obtain ⟨rest, rfl⟩ := hrest
    refine .inl ⟨rest, hroot, rfl, ?_⟩
    cases hcs : rest.toList with
    | nil =>
      rw [String.toList_eq_nil_iff] at hcs
      exact absurd (.inl (by rw [hcs, String.append_empty])) h
    | cons c cs =>
      refine ⟨c, rfl, Bool.eq_false_iff.2 fun hc => h (.inr ⟨c, cs, hc, ?_⟩)⟩
      rw [← hcs, String.ofList_toList]
  · exact .inr (candidates_of_apart (not_exists.1 hrest))

end Candidates

section Gates

theorem shuts_none_iff : Shuts "" file gate ↔ Matches gate file := by
  simp [Shuts, candidates_none, Matches]

theorem Beside.shuts_iff (h : Beside root file rest) :
    Shuts root file gate ↔ Matches gate file ∨ Matches gate rest ∨ Matches gate ("./" ++ rest) := by
  have hdot : Text.replaceChar '\\' '/' ("./" ++ rest) = "./" ++ Text.replaceChar '\\' '/' rest := by
    rw [← String.toList_inj]
    simp [Text.replaceChar]
  simp [Shuts, h.candidates_eq, Matches, hdot]

theorem Shuts.of_none (h : Shuts "" file gate) : Shuts root file gate := by
  obtain ⟨path, hpath, hmatches⟩ := h
  rw [candidates_none, List.mem_singleton] at hpath
  refine ⟨path, ?_, hmatches⟩
  rw [candidates]
  split <;> simp [hpath]

theorem Shut.of_none (h : p.Shut "" file) : p.Shut root file := by
  obtain ⟨hfile, gate, hgate, hshuts⟩ := h
  exact ⟨hfile, gate, hgate, hshuts.of_none⟩

/-- The gate that a file falls under is the same with the directory and without, unless it is found
by mistake. -/
theorem gateFor?_eq_iff (houtside : ¬ LiesUnder root file) :
    p.gateFor? root file = p.gateFor? "" file ↔ ¬ p.Mistaken root file := by
  constructor
  · rintro heq ⟨rest, hbeside, gate, hfirst, hnot⟩
    have hgate : p.gateFor? root file = some gate :=
      gateFor?_eq_some_iff.2 ⟨hbeside.file_ne, hfirst.congr fun _ => hbeside.shuts_iff.symm⟩
    rw [heq, gateFor?_eq_some_iff] at hgate
    exact hnot (shuts_none_iff.1 hgate.2.holds)
  · intro hnot
    obtain ⟨rest, hbeside⟩ | hsame := beside_or_candidates_eq houtside
    · cases hgate : p.gateFor? root file with
      | none =>
        refine (gateFor?_eq_none_iff.2 fun hshut => ?_).symm
        exact gateFor?_eq_none_iff.1 hgate hshut.of_none
      | some gate =>
        obtain ⟨hfile, hfirst⟩ := gateFor?_eq_some_iff.1 hgate
        have hmatches : Matches gate file := by
          by_contra hother
          exact hnot ⟨rest, hbeside, gate, hfirst.congr fun _ => hbeside.shuts_iff, hother⟩
        exact (gateFor?_eq_some_iff.2 ⟨hfile, hfirst.mono (shuts_none_iff.2 hmatches)
          fun _ => Shuts.of_none⟩).symm
    · rw [gateFor?, gateFor?, hsame]

/-- The rule of gates says the same with the directory and without, unless it is for a mistake that
it fails the log first. -/
theorem gated?_eq_iff (houtside : ∀ v ∈ log, ¬ LiesUnder root v.file) :
    p.gated? root log = p.gated? "" log ↔
      ¬ ∃ v, IsFirst (fun v => p.Shut root v.file) log v ∧ p.Mistaken root v.file := by
  constructor
  · rintro heq ⟨v, hfirst, hmistaken⟩
    obtain ⟨gate, hgate⟩ := exists_gateFor?_iff.2 hfirst.holds
    have hgated := heq.symm.trans (gated?_eq_some_iff.2 ⟨v, gate, hfirst, hgate, rfl⟩)
    obtain ⟨u, other, -, hother, hsame⟩ := gated?_eq_some_iff.1 hgated
    -- a verdict tells the file and the gate
    have hfile : v.file = u.file := congrArg Verdict.file hsame
    have hreason := congrArg Verdict.reason hsame
    have hsameGate : toString gate = toString other := by simpa using hreason
    change gate = other at hsameGate
    rw [← hfile, ← hsameGate, ← hgate] at hother
    exact (gateFor?_eq_iff (houtside v hfirst.mem)).1 hother.symm hmistaken
  · intro hnot
    cases hgated : p.gated? root log with
    | none =>
      refine (gated?_eq_none_iff.2 ?_).symm
      rintro ⟨v, hv, hshut⟩
      exact gated?_eq_none_iff.1 hgated ⟨v, hv, hshut.of_none⟩
    | some w =>
      obtain ⟨v, gate, hfirst, hgate, rfl⟩ := gated?_eq_some_iff.1 hgated
      have hright := (gateFor?_eq_iff (houtside v hfirst.mem)).2 fun hmistaken =>
        hnot ⟨v, hfirst, hmistaken⟩
      rw [hgate] at hright
      refine (gated?_eq_some_iff.2 ⟨v, gate, hfirst.mono ?_ fun _ => Shut.of_none, hright.symm, rfl⟩).symm
      exact exists_gateFor?_iff.1 ⟨gate, hright.symm⟩

end Gates

section Verdicts

/-- A rule fails the log that asks for no path. -/
def FailsAnywhere (p : FailPolicy) (log : List Violation) : Prop :=
  p.Blocked log ∨ p.TooMany log ∨ p.TooManyOfType log

theorem evaluate_of_failsAnywhere (h : p.FailsAnywhere log) (root other : String) :
    p.evaluate root log = p.evaluate other log := by
  have hrule : (((p.blockedType? log).or (p.tooMany? log)).or (p.tooManyOfType? log)) ≠ none := by
    simpa [blockedType?_eq_none_iff, tooMany?_eq_none_iff, tooManyOfType?_eq_none_iff,
      FailsAnywhere, imp_iff_not_or, or_assoc] using h
  obtain ⟨w, hw⟩ := Option.ne_none_iff_exists'.1 hrule
  rw [evaluate, evaluate, hw]
  rfl

theorem evaluate_of_not_failsAnywhere (h : ¬ p.FailsAnywhere log) (root : String) :
    p.evaluate root log = (p.gated? root log).getD .pass := by
  obtain ⟨notBlocked, notMany, notType⟩ : ¬ p.Blocked log ∧ ¬ p.TooMany log ∧ ¬ p.TooManyOfType log := by
    simpa [FailsAnywhere] using h
  rw [evaluate, blockedType?_eq_none_iff.2 notBlocked, tooMany?_eq_none_iff.2 notMany,
    tooManyOfType?_eq_none_iff.2 notType]
  rfl

theorem gated?_shouldFail {w : Verdict} (h : p.gated? root log = some w) : w ≠ .pass := by
  obtain ⟨v, gate, -, -, rfl⟩ := gated?_eq_some_iff.1 h
  simp [Verdict.pass]

theorem getD_gated?_inj {other : String} :
    (p.gated? root log).getD .pass = (p.gated? other log).getD .pass ↔
      p.gated? root log = p.gated? other log := by
  refine ⟨fun h => ?_, fun h => by rw [h]⟩
  cases hroot : p.gated? root log <;> cases hother : p.gated? other log <;>
    simp only [hroot, hother, Option.getD_some, Option.getD_none] at h
  case none.none => rfl
  case none.some => exact absurd h.symm (gated?_shouldFail hother)
  case some.none => exact absurd h (gated?_shouldFail hroot)
  case some.some => rw [h]

/-- The text of the directory that files are told from. -/
def rootText (t : FileTree) (root : String) : String :=
  if root == "" then "" else (t.resolve (Path.ofText root)).text

/-- If no file is a directory or lies under it, then the verdict is the one for no directory, unless
gates decide and the first file that falls under one does so by mistake. -/
theorem verdict_outside_root_iff (p : FailPolicy) (t : FileTree) (root : String)
    (log : List Violation) (houtside : ∀ v ∈ log, ¬ LiesUnder (rootText t root) v.file) :
    p.evaluateIn t root log = p.evaluateIn t "" log ↔
      (p.Blocked log ∨ p.TooMany log ∨ p.TooManyOfType log) ∨
        ¬ ∃ v, IsFirst (fun v => p.Shut (rootText t root) v.file) log v ∧
          p.Mistaken (rootText t root) v.file := by
  change p.evaluate (rootText t root) log = p.evaluate "" log ↔ p.FailsAnywhere log ∨ _
  by_cases hanywhere : p.FailsAnywhere log
  · exact iff_of_true (evaluate_of_failsAnywhere hanywhere _ _) (.inl hanywhere)
  · rw [evaluate_of_not_failsAnywhere hanywhere, evaluate_of_not_failsAnywhere hanywhere,
      getD_gated?_inj, gated?_eq_iff houtside, or_iff_right hanywhere]

/-- A violation in a file beside the directory of the plugin. -/
def besidePlugin : Violation :=
  ⟨"x", .high, "/plugin-old/vendor/x.php", 0, "", "", []⟩

def gatedBy (gate : String) : FailPolicy :=
  ⟨[], none, [], [gate]⟩

def emptyTree : FileTree :=
  ⟨.dir [], ⟨1, []⟩⟩

theorem rootText_plugin : rootText emptyTree "/plugin" = "/plugin" := by
  have hpath : Path.ofText "/plugin" = ⟨1, ["plugin"]⟩ := by decide +kernel
  have hresolve : emptyTree.resolve ⟨1, ["plugin"]⟩ = ⟨1, ["plugin"]⟩ := by
    simp [FileTree.resolve, FileTree.absolute, FileTree.realParts, FileTree.plainEntry?, emptyTree,
      Path.join, Path.isAbsolute, Entry.child?]
  rw [rootText, hpath, hresolve]
  decide +kernel

theorem besidePlugin_outside : ¬ LiesUnder "/plugin" besidePlugin.file := by
  rintro (heq | ⟨separator, rest, hseparator, heq⟩)
  · exact absurd heq (by decide)
  · rw [← String.toList_inj] at heq
    obtain ⟨rfl, -⟩ : '-' = separator ∧ _ := by simpa [besidePlugin] using heq
    exact absurd hseparator (by decide)

/-- A gate for all files below a directory of any plugin. -/
theorem vendor_gate_same :
    (∀ v ∈ [besidePlugin], ¬ LiesUnder (rootText emptyTree "/plugin") v.file) ∧
      (gatedBy "*/vendor/*").evaluateIn emptyTree "/plugin" [besidePlugin] =
        (gatedBy "*/vendor/*").evaluateIn emptyTree "" [besidePlugin] := by
  have houtside : ∀ v ∈ [besidePlugin], ¬ LiesUnder (rootText emptyTree "/plugin") v.file := by
    rw [rootText_plugin]
    simpa using besidePlugin_outside
  refine ⟨houtside, (verdict_outside_root_iff _ _ _ _ houtside).2 (.inr ?_)⟩
  rintro ⟨v, hfirst, rest, -, gate, hgate, hnot⟩
  obtain rfl := List.mem_singleton.1 hfirst.mem
  obtain rfl := List.mem_singleton.1 hgate.mem
  exact hnot (by cbv)

/-- A gate for what the name of the directory beside adds. -/
theorem old_gate_mistaken :
    (∀ v ∈ [besidePlugin], ¬ LiesUnder (rootText emptyTree "/plugin") v.file) ∧
      ((gatedBy "-old/*").evaluateIn emptyTree "/plugin" [besidePlugin]).shouldFail = true ∧
      ((gatedBy "-old/*").evaluateIn emptyTree "" [besidePlugin]).shouldFail = false := by
  change _ ∧ ((gatedBy "-old/*").evaluate (rootText emptyTree "/plugin") _).shouldFail = true ∧
    ((gatedBy "-old/*").evaluate "" _).shouldFail = false
  rw [rootText_plugin]
  exact ⟨by simpa using besidePlugin_outside, by decide +kernel, by decide +kernel⟩

end Verdicts

end FailPolicy

end PluginAudit
