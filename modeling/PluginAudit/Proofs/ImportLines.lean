import PluginAudit.Proofs.CoveredNames
import PluginAudit.Proofs.ImportItems
import Mathlib

namespace PluginAudit.Lines

open Text Recognizer

theorem reads_semicolon {p q : Place} {x : Unit} : Reads (word ";") p x q ↔ p.Spells [';'] q := by
  have hsame {c : Char} : sameFolded ';' c = true ↔ c = ';' := sameFolded_caseless (by decide)
  rw [reads_word]
  constructor
  · rintro ⟨cs, hspells, hcs⟩
    obtain ⟨c, rest, hc, hrest, rfl⟩ := List.forall₂_cons_left_iff.1 hcs
    rw [hsame.1 hc, List.forall₂_nil_left_iff.1 hrest] at hspells
    exact hspells
  · intro hspells
    exact ⟨[';'], hspells, .cons (hsame.2 rfl) .nil⟩

theorem reads_clauseText {p q : Place} {s : String} :
    Reads (text (one (· != ';') >>= fun _ => run (· != ';'))) p s q ↔
      ∃ cs, p.Spells cs q ∧ cs ≠ [] ∧ ';' ∉ cs ∧ s = String.ofList cs := by
  have hnone {cs : List Char} : (∀ c ∈ cs, (c != ';') = true) ↔ ';' ∉ cs := by
    simp [List.forall_mem_ne']
  simp only [reads_text, reads_oneRun, hnone]
  constructor
  · rintro ⟨⟨cs, hspells, hne, hcs⟩, rfl⟩
    exact ⟨cs, hspells, hne, hcs, by rw [hspells.taken]⟩
  · rintro ⟨cs, hspells, hne, hcs, rfl⟩
    exact ⟨⟨cs, hspells, hne, hcs⟩, by rw [hspells.taken]⟩

theorem reads_importClause {p q : Place} {clause : String} : Reads importClause p clause q ↔
    ∃ lead letters gap cs, p.Spells (lead ++ (letters ++ (gap ++ (cs ++ [';'])))) q ∧
      (∀ c ∈ lead, isBlank c = true) ∧
      List.Forall₂ (fun w c => sameFolded w c = true) "use".toList letters ∧
      gap ≠ [] ∧ (∀ c ∈ gap, isBlank c = true) ∧ cs ≠ [] ∧ ';' ∉ cs ∧
      clause = String.ofList cs := by
  rw [importClause, reads_bind]
  simp only [reads_bind (r := word "use"), reads_bind (r := someBlanks), reads_bind (r := text _),
    reads_bind (r := word ";"), blanks, reads_run, reads_word (w := "use"), reads_someBlanks,
    reads_clauseText, reads_semicolon, reads_pure]
  constructor
  · rintro ⟨-, m₁, ⟨lead, hlead, hblank⟩, -, m₂, ⟨letters, hletters, huse⟩, -, m₃,
      ⟨gap, hgap, hne, hgaps⟩, _, m₄, ⟨cs, hcs, hne', hnone, rfl⟩, -, m₅, hend, rfl, rfl⟩
    exact ⟨lead, letters, gap, cs, hlead.trans (hletters.trans (hgap.trans (hcs.trans hend))),
      hblank, huse, hne, hgaps, hne', hnone, rfl⟩
  · rintro ⟨lead, letters, gap, cs, hspells, hblank, huse, hne, hgaps, hne', hnone, rfl⟩
    obtain ⟨m₁, hlead, hspells⟩ := hspells.split
    obtain ⟨m₂, hletters, hspells⟩ := hspells.split
    obtain ⟨m₃, hgap, hspells⟩ := hspells.split
    obtain ⟨m₄, hcs, hend⟩ := hspells.split
    exact ⟨(), m₁, ⟨lead, hlead, hblank⟩, (), m₂, ⟨letters, hletters, huse⟩, (), m₃,
      ⟨gap, hgap, hne, hgaps⟩, _, m₄, ⟨cs, hcs, hne', hnone, rfl⟩, (), q, hend, rfl, rfl⟩

theorem strip_append {before : List Char} (h : ∀ c ∈ before, isBlank c = true) (cs : List Char) :
    strip (String.ofList (before ++ cs)) = strip (String.ofList cs) := by
  rw [strip, strip, trim, trim, String.toList_ofList, String.toList_ofList,
    List.dropWhile_append_of_pos h]

theorem sameFolded_comm (c d : Char) : sameFolded c d = sameFolded d c := by
  rw [sameFolded, sameFolded, BEq.comm, BEq.comm (a := foldChar c)]

theorem forall₂_of_spells {written word : String} (h : Php.Spells written word) :
    List.Forall₂ (fun w c => sameFolded w c = true) word.toList written.toList :=
  List.Forall₂.imp (fun w c hsame => (sameFolded_comm w c).trans hsame) h.foldsTo.flip

theorem takeWhile_semicolon {cs : List Char} (h : ';' ∉ cs) (rest : List Char) :
    (cs ++ ';' :: rest).takeWhile (· != ';') = cs := by
  rw [List.takeWhile_append_of_pos, List.takeWhile_cons_of_neg (by simp), List.append_nil]
  intro c hc
  rw [bne_iff_ne]
  rintro rfl
  exact h hc

theorem not_mem_semicolon_blanks {cs : List Char} (h : ∀ c ∈ cs, isBlank c = true) : ';' ∉ cs := by
  intro hmem
  have hblank : isBlank ';' = false := Php.not_isBlank_mark (by decide)
  exact Bool.false_ne_true (hblank.symm.trans (h _ hmem))

section Clause

variable {word line : String} {gap cs rest : List Char} (hword : Php.Spells word "use")
  (hgap : ∀ c ∈ gap, isBlank c = true) (hnone : ';' ∉ cs)
  (hline : line.toList = word.toList ++ (gap ++ (cs ++ ';' :: rest)))

include hword hgap hnone hline

theorem exists_reading (hne : gap ≠ []) (hcs : cs ≠ []) :
    ∃ q, Reads importClause ⟨[], line.toList⟩ (String.ofList cs) q := by
  have hspells := Place.spells_skip [] (word.toList ++ (gap ++ (cs ++ [';']))) rest
  simp only [List.append_assoc, List.singleton_append] at hspells
  rw [← hline] at hspells
  exact ⟨_, reads_importClause.2 ⟨[], word.toList, gap, cs, hspells, List.forall_mem_nil _,
    forall₂_of_spells hword, hne, hgap, hcs, hnone, rfl⟩⟩

theorem strip_of_reads {clause : String} {q : Place}
    (hread : Reads importClause ⟨[], line.toList⟩ clause q) :
    strip clause = strip (String.ofList cs) := by
  have hlength : word.toList.length = 3 := by simpa using congrArg List.length hword
  obtain ⟨lead, letters, gap', cs', hspells, hlead, huse, -, hgap', -, hnone', rfl⟩ :=
    reads_importClause.1 hread
  have hsplit : word.toList ++ (gap ++ (cs ++ ';' :: rest)) =
      lead ++ (letters ++ (gap' ++ (cs' ++ ';' :: q.after))) := by
    rw [← hline]
    simpa using hspells.after
  obtain rfl : lead = [] := by
    cases lead with
    | nil => rfl
    | cons b lead =>
      obtain ⟨c, hc, hblank⟩ := (hword.opens (by decide)).append (gap ++ (cs ++ ';' :: rest))
      rw [hsplit] at hc
      obtain rfl : b = c := Option.some.inj hc
      rw [hlead b List.mem_cons_self] at hblank
      cases hblank
  rw [List.nil_append] at hsplit
  have hletters : word.toList.length = letters.length := hlength.trans huse.length_eq
  obtain ⟨-, hrest⟩ := List.append_inj hsplit hletters
  have hsame : gap ++ cs = gap' ++ cs' := by
    have hcut := congrArg (List.takeWhile (· != ';')) hrest
    rwa [← List.append_assoc, ← List.append_assoc, takeWhile_semicolon, takeWhile_semicolon] at hcut
    · rw [List.mem_append, not_or]
      exact ⟨not_mem_semicolon_blanks hgap', hnone'⟩
    · rw [List.mem_append, not_or]
      exact ⟨not_mem_semicolon_blanks hgap, hnone⟩
  rw [← strip_append hgap', ← hsame, strip_append hgap]

theorem exists_clause (hne : gap ≠ []) (hcs : cs ≠ []) :
    ∃ clause, importClause.atStart line = some clause ∧
      importedNames clause = importedNames (String.ofList cs) := by
  obtain ⟨q, hread⟩ := exists_reading hword hgap hnone hline hne hcs
  obtain ⟨clause, q, hclause, hread⟩ := atStart_of_reads hread
  refine ⟨clause, hclause, ?_⟩
  rw [importedNames, importedNames, strip_of_reads hword hgap hnone hline hread]

end Clause

/-- The row for the import of a name that a forbidden namespace covers. -/
def importRow (l : Line) (ns : String) : Violation :=
  l.violation "forbidden_namespace_import" .critical "Import of forbidden namespace or child"
    [("namespace", .text ns)]

theorem namespaceViolations_of_clause {p : Policy} {l : Line} {clause : String}
    (h : importClause.atStart l.text = some clause) (tokens : Option (List String)) :
    namespaceViolations (.ofPolicy p tokens) l = (importedNames clause).filterMap fun name =>
      (p.forbiddenNamespaceFor? name).map (importRow l) := by
  rw [namespaceViolations]
  split
  case isTrue hempty =>
    have hnone (name : String) : p.forbiddenNamespaceFor? name = none := by
      have hnil : p.forbiddenNamespaces = [] := List.isEmpty_iff.1 hempty
      rw [Policy.forbiddenNamespaceFor?, hnil]
      exact ite_self none
    simp only [hnone, Option.map_none, List.filterMap_none]
  case isFalse =>
    rw [h]
    rfl

/-- The line is reported for the namespace, in whatever way. -/
def IsReported (s : Searches) (l : Line) (ns : String) : Prop :=
  ∃ v ∈ namespaceViolations s l, v.data = [("namespace", .text ns)]

/-- The part of a text that is read as a clause. -/
def clauseIn (c : String) : String :=
  String.ofList (c.toList.takeWhile (· != ';'))

theorem not_mem_clauseIn (c : String) : ';' ∉ (clauseIn c).toList := by
  rw [clauseIn, String.toList_ofList]
  intro h
  simpa using List.mem_takeWhile_imp h

/-- Up to a semicolon, either the text is its clause or a semicolon ends the clause before. -/
theorem exists_behind_clause (c : String) (rest : List Char) :
    ∃ more, c.toList ++ ';' :: rest = (clauseIn c).toList ++ ';' :: more := by
  have hsplit := List.takeWhile_append_dropWhile (p := (· != ';')) (l := c.toList)
  rw [clauseIn, String.toList_ofList]
  cases hlater : c.toList.dropWhile (· != ';') with
  | nil =>
    refine ⟨rest, ?_⟩
    rw [hlater, List.append_nil] at hsplit
    rw [hsplit]
  | cons d later =>
    have hhead := List.head?_dropWhile_not (· != ';') c.toList
    rw [hlater] at hhead hsplit
    obtain rfl : d = ';' := by simpa using hhead
    refine ⟨later ++ ';' :: rest, ?_⟩
    nth_rewrite 1 [← hsplit]
    rw [List.append_assoc, List.cons_append]

/-- Behind the clause of an import nothing of a line is looked at: the rows are those of the imported
names. So what the rest mentions by itself is reported for the line just if the imported names are
covered by it too. -/
theorem rest_of_import_unread (p : Policy) (tokens : Option (List String)) {word gap c : String}
    (hword : Php.Spells word "use") (hgap : gap ≠ "" ∧ ∀ x ∈ gap.toList, isBlank x = true)
    (hc : clauseIn c ≠ "") (rest file : String) (number : Nat) :
    let l : Line := ⟨file, number, word ++ gap ++ c ++ "; " ++ rest⟩
    let names := importedNames (clauseIn c)
    namespaceViolations (.ofPolicy p tokens) l =
      names.filterMap (fun name => (p.forbiddenNamespaceFor? name).map (importRow l)) ∧
    ((∀ ns, IsMentioned (.ofPolicy p tokens) ⟨file, number, rest⟩ ns →
        IsReported (.ofPolicy p tokens) l ns) ↔
      ∀ ns, IsMentioned (.ofPolicy p tokens) ⟨file, number, rest⟩ ns →
        ∃ name ∈ names, p.forbiddenNamespaceFor? name = some ns) := by
  intro l names
  have hrows : namespaceViolations (.ofPolicy p tokens) l =
      names.filterMap fun name => (p.forbiddenNamespaceFor? name).map (importRow l) := by
    obtain ⟨more, hmore⟩ := exists_behind_clause c (' ' :: rest.toList)
    have hline : l.text.toList =
        word.toList ++ (gap.toList ++ ((clauseIn c).toList ++ ';' :: more)) := by
      rw [← hmore]
      simp [l]
    obtain ⟨clause, hclause, hnames⟩ := exists_clause hword hgap.2 (not_mem_clauseIn c) hline
      (by simpa using hgap.1) (by simpa using hc)
    rw [namespaceViolations_of_clause hclause tokens, hnames, String.ofList_toList]
  have hreported (ns : String) : IsReported (.ofPolicy p tokens) l ns ↔
      ∃ name ∈ names, p.forbiddenNamespaceFor? name = some ns := by
    rw [IsReported, hrows]
    simp only [List.mem_filterMap, Option.map_eq_some_iff]
    constructor
    · rintro ⟨v, ⟨name, hname, other, hcovers, rfl⟩, hdata⟩
      obtain rfl : other = ns := by simpa [importRow, Line.violation] using hdata
      exact ⟨name, hname, hcovers⟩
    · rintro ⟨name, hname, hcovers⟩
      exact ⟨importRow l ns, ⟨name, hname, ns, hcovers, rfl⟩, rfl⟩
  refine ⟨hrows, ?_⟩
  simp only [hreported]

section JoinedStatements

/-- A policy that forbids two namespaces. -/
def twoForbidden : Policy :=
  { (default : Policy) with forbiddenNamespaces := ["DB", "Mail"] }

/-- The import is reported, and the reference behind it is not. -/
theorem joined_import_reported :
    let l : Line := ⟨"a.php", 1, "USE" ++ "\t" ++ "DB\\Model" ++ "; " ++ "\\Mail\\send();"⟩
    namespaceViolations (.ofPolicy twoForbidden none) l = [importRow l "DB"] := by
  intro l
  have hblank : isBlank '\t' = true := by decide +kernel
  have hword : Php.Spells "USE" "use" := by decide
  have hgap : "\t" ≠ "" ∧ ∀ x ∈ "\t".toList, isBlank x = true := ⟨by decide, by simpa using hblank⟩
  have hclause : clauseIn "DB\\Model" ≠ "" := by decide
  have hrows := (rest_of_import_unread twoForbidden none hword hgap hclause "\\Mail\\send();" "a.php"
    1).1
  have hnames : importedNames (clauseIn "DB\\Model") = ["DB\\Model"] := by decide +kernel
  have hcovered : twoForbidden.forbiddenNamespaceFor? "DB\\Model" = some "DB" := by cbv
  rw [hrows, hnames, List.filterMap_cons, hcovered]
  rfl

/-- A line that is no import refers to a forbidden namespace, and joined to an import it is not
reported for it. -/
theorem joined_reference_missed :
    let rest := "$t = \\DB\\Query::table('t');"
    importClause.atStart rest = none ∧
    IsMentioned (.ofPolicy twoForbidden none) ⟨"a.php", 1, rest⟩ "DB" ∧
    ¬ IsReported (.ofPolicy twoForbidden none) ⟨"a.php", 1, "use App; " ++ rest⟩ "DB" := by
  intro rest
  have hplain : importClause.atStart rest = none := by decide +kernel
  refine ⟨hplain, ?_, ?_⟩
  · have hrefers : (referenceTo "DB").occurs rest = true := by decide +kernel
    exact (isMentioned_iff (l := ⟨"a.php", 1, rest⟩) (by decide) none hplain).2 hrefers
  · have hclause : importClause.atStart ("use App; " ++ rest) = some "App" := by decide +kernel
    have hnames : importedNames "App" = ["App"] := by decide +kernel
    have hfree : twoForbidden.forbiddenNamespaceFor? "App" = none := by cbv
    have hrows := namespaceViolations_of_clause (l := ⟨"a.php", 1, "use App; " ++ rest⟩) hclause none
      (p := twoForbidden)
    rw [hnames, List.filterMap_cons, hfree] at hrows
    rw [IsReported, hrows]
    rintro ⟨v, hv, -⟩
    cases hv

end JoinedStatements

end PluginAudit.Lines
