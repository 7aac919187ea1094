import PluginAudit.Proofs.ImportClauses
import PluginAudit.Proofs.ImportLines
import PluginAudit.Proofs.StringBuilding
import Mathlib

namespace PluginAudit.Php

/-- The text of an import without its kind. -/
def UseClause.item (c : UseClause) : List Char :=
  c.name.chars ++ (c.knownAs.map UseAlias.chars).getD []

namespace UseDeclaration

/-- What stands between the blanks behind the first word of a declaration and its semicolon. -/
def clauseText (d : UseDeclaration) : String :=
  String.ofList (d.stem ++ d.closing.chars)

/-- What stands in front of each name of a group, all blanks included. -/
def groupChars (d : UseDeclaration) : List Char :=
  (d.base.map fun b => b.name.chars ++ b.before.chars ++ ['\\']).getD []

/-- The name of an import as it is written, below the name of its group. -/
def written (d : UseDeclaration) (c : UseClause) : String :=
  String.ofList (d.groupChars ++ c.name.chars)

/-- The declaration is legible, and no single segment reads as a kind where a kind is looked for and
a blank follows: in front of an alias, and at the beginning of a declaration without a kind in front
of any gap. -/
structure Readable (d : UseDeclaration) : Prop where
  legible : d.Legible
  base : d.kind = none → ∀ b ∈ d.base, b.before ≠ [] → b.name.Unworded
  first : d.kind = none → d.base = none → ∀ c ∈ d.clauses.head?, c.after ≠ [] → c.name.Unworded
  aliased : ∀ c ∈ d.clauses, c.kind = none → c.knownAs.isSome = true → c.name.Unworded

instance : DecidablePred Readable :=
  fun d => decidable_of_iff (d.Legible ∧
    (d.kind = none → ∀ b ∈ d.base, b.before ≠ [] → b.name.Unworded) ∧
    (d.kind = none → d.base = none → ∀ c ∈ d.clauses.head?, c.after ≠ [] → c.name.Unworded) ∧
    ∀ c ∈ d.clauses, c.kind = none → c.knownAs.isSome = true → c.name.Unworded)
    ⟨fun ⟨legible, base, first, aliased⟩ => ⟨legible, base, first, aliased⟩,
    fun ⟨legible, base, first, aliased⟩ => ⟨legible, base, first, aliased⟩⟩

end UseDeclaration

end PluginAudit.Php

namespace PluginAudit.Lines

open Text Recognizer Php

section Kind

theorem wordEnd_after (before ws cs : List Char) :
    (wordEnd before ws cs).map Place.after = Import.afterLetters? ws cs := by
  induction ws generalizing before cs with
  | nil => rfl
  | cons w ws ih =>
    cases cs with
    | nil => rfl
    | cons c cs =>
      rw [wordEnd, Import.afterLetters?, sameFolded_comm]
      split
      · exact ih (c :: before) cs
      · rfl

theorem head?_runEnds (test : Char → Bool) (ends : List (Unit × Place)) (before cs : List Char) :
    (runEnds test ends before cs).head?.map (fun e => e.2.after) = some (cs.dropWhile test) := by
  induction cs generalizing ends before with
  | nil => rfl
  | cons c cs ih =>
    rw [runEnds, List.dropWhile_cons]
    split
    · exact ih _ _
    · rfl

theorem head?_someBlanks (p : Place) : (someBlanks.read p).head?.map (fun e => e.2.after) =
    if p.after.head?.any isBlank then some (p.after.dropWhile isBlank) else none := by
  obtain ⟨before, after⟩ := p
  cases after with
  | nil => rfl
  | cons c rest =>
    have hread : someBlanks.read ⟨before, c :: rest⟩ =
        if isBlank c then runEnds isBlank [] (c :: before) rest else [] := by
      simp only [someBlanks, bind, one, run]
      split <;> simp
    rw [hread, List.head?_cons, Option.any_some]
    split
    case isTrue hc => rw [head?_runEnds, List.dropWhile_cons_of_pos hc]
    case isFalse => rfl

/-- One of the words and blanks behind it. -/
def blankedWord (ws : List String) : Recognizer Unit := do
  oneOf ws
  someBlanks

theorem head?_blankedWord (ws : List String) (p : Place) :
    ((blankedWord ws).read p).head?.map (fun e => e.2.after) =
      ws.findSome? fun w => Import.afterWord? w p.after := by
  induction ws with
  | nil => rfl
  | cons w ws ih =>
    have hword := wordEnd_after p.before w.toList p.after
    rw [List.findSome?_cons, Import.afterWord?_eq, ← hword, ← ih]
    simp only [blankedWord, bind, oneOf, List.filterMap_cons]
    cases wordEnd p.before w.toList p.after with
    | none => rfl
    | some q =>
      rw [Option.map_some, Option.map_some, Option.bind_some, List.flatMap_cons, List.head?_append]
      have hblanks := head?_someBlanks q
      dsimp only
      rw [← hblanks]
      cases (someBlanks.read q).head? <;> rfl

theorem withoutKind_eq (cs : List Char) : withoutKind (String.ofList cs) =
    ((Import.kind? cs).map fun e => String.ofList e.2).getD (String.ofList cs) := by
  have hhead := head?_blankedWord importKinds ⟨[], cs⟩
  have hkind : (importKinds.findSome? fun w => Import.afterWord? w cs) =
      (Import.kind? cs).map Prod.snd := by
    rw [importKinds, List.findSome?_cons, List.findSome?_cons, List.findSome?_nil, Import.kind?]
    cases Import.afterWord? "function" cs with
    | some rest => rfl
    | none => cases Import.afterWord? "const" cs <;> rfl
  rw [hkind] at hhead
  rw [withoutKind]
  split
  case h_1 x p hread =>
    rw [String.toList_ofList] at hread
    have hread : ((blankedWord importKinds).read ⟨[], cs⟩).head? = some (x, p) := hread
    rw [hread, Option.map_some, eq_comm, Option.map_eq_some_iff] at hhead
    obtain ⟨k, hk, hafter⟩ := hhead
    rw [hk, Option.map_some, Option.getD_some, hafter]
  case h_2 hread =>
    rw [String.toList_ofList] at hread
    have hread : ((blankedWord importKinds).read ⟨[], cs⟩).head? = none := hread
    rw [hread, Option.map_none, eq_comm, Option.map_eq_none_iff] at hhead
    rw [hhead]
    rfl

end Kind

section Alias

/-- An `as` between blanks, and the characters before it. -/
def aliasStart : Recognizer (List Char) := do
  let before : List Char ← ⟨fun p => [(p.before, p)]⟩
  someBlanks
  word "as"
  someBlanks
  return before

theorem reads_aliasStart {p q : Place} {before : List Char} : Reads aliasStart p before q ↔
    before = p.before ∧ ∃ bs letters bs', p.Spells (bs ++ (letters ++ bs')) q ∧
      (bs ≠ [] ∧ ∀ c ∈ bs, isBlank c = true) ∧
      List.Forall₂ (fun w c => sameFolded w c = true) "as".toList letters ∧
      bs' ≠ [] ∧ ∀ c ∈ bs', isBlank c = true := by
  have hhere {p q : Place} {before : List Char} :
      Reads ⟨fun p : Place => [(p.before, p)]⟩ p before q ↔ before = p.before ∧ q = p := by
    simp [Reads]
  simp only [aliasStart, reads_bind, hhere, reads_someBlanks, reads_word, reads_pure]
  constructor
  · rintro ⟨_, _, ⟨rfl, rfl⟩, -, m, ⟨bs, hbs, hne, hblank⟩, -, m', ⟨letters, hletters, has⟩, -, m'',
      ⟨bs', hbs', hne', hblank'⟩, rfl, rfl⟩
    exact ⟨rfl, bs, letters, bs', hbs.trans (hletters.trans hbs'), ⟨hne, hblank⟩, has, hne', hblank'⟩
  · rintro ⟨rfl, bs, letters, bs', hspells, ⟨hne, hblank⟩, has, hne', hblank'⟩
    obtain ⟨m, hbs, hspells⟩ := hspells.split
    obtain ⟨m', hletters, hbs'⟩ := hspells.split
    exact ⟨_, p, ⟨rfl, rfl⟩, (), m, ⟨bs, hbs, hne, hblank⟩, (), m', ⟨letters, hletters, has⟩, (), q,
      ⟨bs', hbs', hne', hblank'⟩, rfl, rfl⟩

theorem searchFrom_cons {α : Type} {r : Recognizer α} {before rest : List Char} {c : Char}
    (h : ∀ a q, ¬ Reads r ⟨before, c :: rest⟩ a q) :
    searchFrom r before (c :: rest) = searchFrom r (c :: before) rest := by
  rw [searchFrom, read_eq_nil_iff.2 h]

theorem searchFrom_unblanked {cs : List Char} (h : ∀ c ∈ cs, isBlank c = false)
    (before rest : List Char) :
    searchFrom aliasStart before (cs ++ rest) = searchFrom aliasStart (cs.reverse ++ before) rest := by
  induction cs generalizing before with
  | nil => rfl
  | cons c cs ih =>
    rw [List.forall_mem_cons] at h
    rw [List.cons_append, searchFrom_cons, ih h.2]
    · simp
    · intro a q hread
      obtain ⟨-, bs, letters, bs', hspells, ⟨hne, hblank⟩, -⟩ := reads_aliasStart.1 hread
      obtain ⟨b, bs, rfl⟩ := List.exists_cons_of_ne_nil hne
      obtain rfl : c = b := (List.cons.inj hspells.after).1
      exact Bool.false_ne_true (h.1.symm.trans (hblank c List.mem_cons_self))

/-- Behind blanks of a gap in front of a backslash stands a character of the gap or the backslash. -/
theorem stop_behind_blanks {gap bs rest more : List Char} {l : Char} (hgap : ∀ c ∈ gap, c ∈ stops)
    (hbs : ∀ b ∈ bs, isBlank b = true) (h : gap ++ '\\' :: rest = bs ++ l :: more) : l ∈ stops := by
  induction bs generalizing gap with
  | nil =>
    cases gap with
    | nil =>
      obtain rfl : '\\' = l := (List.cons.inj h).1
      exact backslash_mem_stops
    | cons c gap =>
      obtain rfl : c = l := (List.cons.inj h).1
      exact hgap c List.mem_cons_self
  | cons b bs ih =>
    rw [List.forall_mem_cons] at hbs
    cases gap with
    | nil =>
      obtain rfl : '\\' = b := (List.cons.inj h).1
      rw [not_isBlank_mark (by decide)] at hbs
      exact absurd hbs.1 Bool.false_ne_true
    | cons c gap =>
      rw [List.forall_mem_cons] at hgap
      exact ih hgap.2 hbs.2 (List.cons.inj h).2

theorem searchFrom_gap {gap : List Char} (h : ∀ c ∈ gap, c ∈ stops) (before rest : List Char) :
    searchFrom aliasStart before (gap ++ '\\' :: rest) =
      searchFrom aliasStart ('\\' :: (gap.reverse ++ before)) rest := by
  induction gap generalizing before with
  | nil =>
    have hbackslash : isBlank '\\' = false := not_isBlank_mark (by decide)
    exact @searchFrom_unblanked ['\\'] (by simpa using hbackslash) before rest
  | cons c gap ih =>
    have hall := h
    rw [List.forall_mem_cons] at h
    rw [List.cons_append, searchFrom_cons, ih h.2]
    · simp
    · intro a q hread
      obtain ⟨-, bs, letters, bs', hspells, ⟨-, hblank⟩, has, -⟩ := reads_aliasStart.1 hread
      obtain ⟨l, more, hl, -, rfl⟩ := List.forall₂_cons_left_iff.1 has
      have hsplit : c :: gap ++ '\\' :: rest = bs ++ l :: (more ++ (bs' ++ q.after)) := by
        simpa using hspells.after
      have hstop := sameFolded_stop l (stop_behind_blanks hall hblank hsplit) 'a' (by decide)
      rw [sameFolded_comm] at hstop
      exact Bool.false_ne_true (hstop.symm.trans hl)

theorem searchFrom_alias {a : UseAlias} (hproper : a.Proper) (hplain : a.Plain) (before : List Char) :
    (searchFrom aliasStart before a.chars).map Prod.fst = some before := by
  have hspells := Place.spells_skip before
    (a.before.chars ++ (a.word.toList ++ a.gap.chars)) a.name.toList
  have hread := reads_aliasStart.2 ⟨rfl, _, _, _, hspells,
    ⟨Gap.chars_ne_nil hplain.before hproper.before.2,
      Gap.isBlank_chars hproper.before.1 hplain.before⟩, forall₂_of_spells hproper.word,
    Gap.chars_ne_nil hplain.gap hproper.gap.2, Gap.isBlank_chars hproper.gap.1 hplain.gap⟩
  have hchars : a.chars = a.before.chars ++ (a.word.toList ++ a.gap.chars) ++ a.name.toList := by
    simp only [UseAlias.chars, List.append_assoc]
  obtain ⟨front, q, hhead, hfirst⟩ := exists_head hread
  rw [hchars, searchFrom_eq_some (Place.spells_nil.2 rfl) hhead]
  · exact congrArg some (reads_aliasStart.1 hfirst).1
  · intro ds q' _ hlength
    exact absurd hlength (Nat.not_lt_zero _)

theorem searchFrom_nil (before : List Char) : searchFrom aliasStart before [] = none := by
  rw [searchFrom, List.head?_eq_none_iff, read_eq_nil_iff]
  intro a q hread
  obtain ⟨-, bs, letters, bs', hspells, ⟨hne, -⟩, -⟩ := reads_aliasStart.1 hread
  have hnil := hspells.after.symm
  simp only [List.append_eq_nil_iff] at hnil
  exact hne hnil.1.1

/-- What stands in front of an alias is left of the text of an import, be there an alias or not. -/
theorem withoutAlias_of_search {cs : List Char} {a : Option UseAlias}
    (ha : ∀ w ∈ a, w.Proper ∧ w.Plain)
    (hsearch : ∀ rest, searchFrom aliasStart [] (cs ++ rest) = searchFrom aliasStart cs.reverse rest) :
    withoutAlias (String.ofList (cs ++ (a.map UseAlias.chars).getD [])) = String.ofList cs := by
  have hfound : aliasStart.search (String.ofList (cs ++ (a.map UseAlias.chars).getD [])) =
      a.map fun _ => cs.reverse := by
    rw [search, String.toList_ofList, hsearch]
    cases a with
    | none =>
      rw [Option.map_none, Option.getD_none, searchFrom_nil]
      rfl
    | some w =>
      rw [Option.map_some, Option.getD_some, searchFrom_alias (ha w rfl).1 (ha w rfl).2]
      rfl
  rw [withoutAlias]
  split
  case h_1 before hread =>
    have hread : a.map (fun _ => cs.reverse) = some before := hfound.symm.trans hread
    obtain ⟨w, -, rfl⟩ := Option.map_eq_some_iff.1 hread
    rw [List.reverse_reverse]
  case h_2 hread =>
    have hread : a.map (fun _ => cs.reverse) = none := hfound.symm.trans hread
    rw [Option.map_eq_none_iff.1 hread, Option.map_none, Option.getD_none, List.append_nil]

end Alias

section Group

theorem breakAt_append {x : Char} {front : List Char} (h : x ∉ front) (before rest : List Char) :
    breakAt [x] before (front ++ x :: rest) = some (before.reverse ++ front, rest) := by
  induction front generalizing before with
  | nil => simp [breakAt, List.isPrefixOf?]
  | cons c front ih =>
    rw [List.mem_cons, not_or] at h
    have hne : (x == c) = false := beq_eq_false_iff_ne.2 h.1
    rw [List.cons_append, breakAt, List.isPrefixOf?, hne, if_neg Bool.false_ne_true]
    dsimp only
    rw [ih h.2]
    simp

theorem cutAt?_append {mark : String} {x : Char} (hmark : mark.toList = [x]) {front : List Char}
    (h : x ∉ front) (rest : List Char) : cutAt? mark (String.ofList (front ++ x :: rest)) =
      some (String.ofList front, String.ofList rest) := by
  rw [cutAt?, hmark, String.toList_ofList, breakAt_append h]
  rfl

theorem cutAt?_of_not_mem {mark : String} {x : Char} (hmark : mark.toList = [x]) {cs : List Char}
    (h : x ∉ cs) : cutAt? mark (String.ofList cs) = none := by
  have hnone : breakAt [x] [] cs = none := by
    rw [← Option.not_isSome_iff_eq_none, isSome_breakAt_iff, List.singleton_infix_iff]
    exact h
  rw [cutAt?, hmark, String.toList_ofList, hnone]
  rfl

theorem group?_of_list {cs : List Char} (h : '\x7b' ∉ cs) : group? (String.ofList cs) = none := by
  rw [group?, cutAt?_of_not_mem rfl h]
  rfl

theorem group?_of_group {front inner : List Char} (hfront : '\x7b' ∉ front) (hinner : '\x7d' ∉ inner) :
    group? (String.ofList (front ++ '\x7b' :: (inner ++ ['\x7d']))) =
      some (String.ofList front, String.ofList inner) := by
  have hclosing : cutAt? "\x7d" (String.ofList (inner ++ ['\x7d'])) =
      some (String.ofList inner, String.ofList []) := cutAt?_append rfl hinner []
  rw [group?, cutAt?_append rfl hfront]
  simp only [Option.bind_eq_bind, Option.bind_some, hclosing]
  rfl

end Group

theorem importItems_eq (s : String) : importItems s =
    (((splitBy (· == ',') s).map strip).map withoutKind).filter (· != "") := by
  rw [importItems, List.map_map, Function.comp_def]

theorem importedNames_of_list {clause body : String} (hbody : withoutKind (strip clause) = body)
    (h : group? body = none) :
    importedNames clause = (importItems body).map fun item => strip (withoutAlias item) := by
  rw [importedNames]
  simp only [hbody, h]

theorem importedNames_of_group {clause body front items base : String}
    (hbody : withoutKind (strip clause) = body) (h : group? body = some (front, items))
    (hbase : trimRight isBackslash (strip front) = base) :
    importedNames clause =
      (importItems items).map fun item => strip (withoutAlias (base ++ "\\" ++ item)) := by
  rw [importedNames]
  simp only [hbody, h, hbase, List.map_map, Function.comp_def]

section Items

variable {d : UseDeclaration} (hproper : d.Proper) (hreadable : d.Readable)

include hproper hreadable

theorem withoutKind_core {c : UseClause} (hc : c ∈ d.clauses) :
    withoutKind (String.ofList c.core) = String.ofList c.item := by
  have hname := (hproper.clauses c hc).name
  have hlegible := hreadable.legible.clauses c hc
  have hitem : c.core = (c.kind.map KindWord.chars).getD [] ++ c.item := by
    rw [UseClause.core, UseClause.item, List.append_assoc]
  rw [withoutKind_eq, hitem]
  cases hk : c.kind with
  | none =>
    have hstop : ∀ x ∈ ((c.knownAs.map UseAlias.chars).getD []).head?, x ∈ stops := by
      cases ha : c.knownAs with
      | none => simp
      | some a =>
        have h := UseAlias.head_stop ((hproper.clauses c hc).knownAs a ha) (hlegible.knownAs a ha) []
        rwa [List.append_nil] at h
    have hnone : Import.kind? c.item = none := by
      refine UseName.kind?_chars_append hname hlegible.segments hstop fun hbare => ?_
      cases ha : c.knownAs with
      | none => exact .inr (by simp)
      | some a => exact .inl (hreadable.aliased c hc hk (by rw [ha]; rfl) hbare)
    rw [Option.map_none, Option.getD_none, List.nil_append, hnone]
    rfl
  | some w =>
    have hhead : ∀ x ∈ c.item.head?, isBlank x = false :=
      ((UseName.opens_chars hname hlegible.segments).append _).head_not_isBlank
    rw [Option.map_some, Option.getD_some,
      Import.kind?_chars ((hproper.clauses c hc).kind w hk) (hlegible.kind w hk) hhead]
    rfl

theorem withoutKind_stem : withoutKind (String.ofList d.stem) = String.ofList d.body := by
  rw [withoutKind_eq, UseDeclaration.stem]
  cases hk : d.kind with
  | none =>
    have hkind : Import.kind? d.body = none := by
      refine UseDeclaration.kind?_body hproper hreadable.legible (hreadable.base hk) ?_
      rintro hbase c hhead (halias | hafter)
      · have hc := List.mem_of_mem_head? hhead
        exact hreadable.aliased c hc ((hproper.list hbase).2.1 c hc) halias
      · exact hreadable.first hk hbase c hhead hafter
    rw [Option.map_none, Option.getD_none, List.nil_append, hkind]
    rfl
  | some w =>
    have hhead := (UseDeclaration.opens_body hproper hreadable.legible).head_not_isBlank
    rw [Option.map_some, Option.getD_some,
      Import.kind?_chars (hproper.kind w hk) (hreadable.legible.kind w hk) hhead]
    rfl

/-- The items between the commas; the one behind a trailing comma is empty and left out. -/
theorem importItems_parts : importItems (String.ofList ([','].intercalate d.parts)) =
    d.clauses.map fun c => String.ofList c.item := by
  have hsplit := UseDeclaration.splitBy_parts hproper hreadable.legible
  have hcores : (d.clauses.map fun c => String.ofList c.core).map withoutKind =
      d.clauses.map fun c => String.ofList c.item := by
    rw [List.map_map]
    exact List.map_congr_left fun c hc => withoutKind_core hproper hreadable hc
  have htrailing : ((d.trailing.map fun _ => "").toList.map withoutKind).filter (· != "") = [] := by
    have hempty : withoutKind "" = "" := withoutKind_eq []
    cases d.trailing with
    | none => rfl
    | some g =>
      rw [Option.map_some, Option.toList_some, List.map_singleton, hempty]
      rfl
  have hne : ∀ s ∈ d.clauses.map (fun c => String.ofList c.item), (s != "") = true := by
    intro s hs
    obtain ⟨c, hc, rfl⟩ := List.mem_map.1 hs
    have hname := UseName.chars_ne_nil (hproper.clauses c hc).name
    simpa [UseClause.item] using fun hnil => absurd hnil hname
  rw [importItems_eq, hsplit, List.map_append, List.filter_append, hcores, htrailing, List.append_nil,
    List.filter_eq_self.2 hne]

theorem not_isBlank_name {c : UseClause} (hc : c ∈ d.clauses) :
    ∀ x ∈ c.name.chars, isBlank x = false :=
  UseName.not_isBlank_chars (hproper.clauses c hc).name (hreadable.legible.clauses c hc).segments

theorem closes_name {c : UseClause} (hc : c ∈ d.clauses) : Closes c.name.chars :=
  closes_of_not_isBlank (UseName.chars_ne_nil (hproper.clauses c hc).name)
    (not_isBlank_name hproper hreadable hc)

/-- The name of an import is what stands in front of its alias, with the name of the group. -/
theorem withoutAlias_written {c : UseClause} (hc : c ∈ d.clauses) :
    withoutAlias (String.ofList (d.groupChars ++ c.item)) = d.written c := by
  have hclause := hreadable.legible.clauses c hc
  have halias : ∀ a ∈ c.knownAs, a.Proper ∧ a.Plain := fun a ha =>
    ⟨(hproper.clauses c hc).knownAs a ha, hclause.knownAs a ha⟩
  have hname := not_isBlank_name hproper hreadable hc
  rw [UseDeclaration.written, UseClause.item, ← List.append_assoc]
  refine withoutAlias_of_search halias fun rest => ?_
  cases hbase : d.base with
  | none =>
    rw [UseDeclaration.groupChars, hbase, Option.map_none, Option.getD_none, List.nil_append,
      searchFrom_unblanked hname, List.append_nil]
  | some b =>
    obtain ⟨hbefore, -, hsegments⟩ := hreadable.legible.base b hbase
    have hb := hproper.base b hbase
    have hstops : ∀ x ∈ b.before.chars, x ∈ stops := by
      intro x hx
      exact List.mem_append_left ['\\', ','] (Gap.mem_chars hb.before hbefore hx)
    rw [UseDeclaration.groupChars, hbase, Option.map_some, Option.getD_some]
    simp only [List.append_assoc, List.cons_append, List.nil_append]
    rw [searchFrom_unblanked (UseName.not_isBlank_chars hb.name hsegments), searchFrom_gap hstops,
      searchFrom_unblanked hname]
    simp

theorem strip_written {c : UseClause} (hc : c ∈ d.clauses) : strip (d.written c) = d.written c := by
  rw [UseDeclaration.written]
  refine strip_of_opens ?_ ((closes_name hproper hreadable hc).append _)
  cases hbase : d.base with
  | none =>
    rw [UseDeclaration.groupChars, hbase]
    exact opens_of_not_isBlank (UseName.chars_ne_nil (hproper.clauses c hc).name)
      (not_isBlank_name hproper hreadable hc)
  | some b =>
    have hopens := UseName.opens_chars (hproper.base b hbase).name (hreadable.legible.base b hbase).2.2
    rw [UseDeclaration.groupChars, hbase, Option.map_some, Option.getD_some]
    exact ((hopens.append _).append _).append _

theorem strip_clauseText : strip d.clauseText = String.ofList d.stem := by
  have h := strip_between (List.forall_mem_nil _)
    (UseDeclaration.opens_stem hproper hreadable.legible)
    ((UseDeclaration.closes_body hproper hreadable.legible).append _)
    (Gap.isBlank_chars hproper.closing hreadable.legible.closing)
  rwa [List.nil_append] at h

theorem trimRight_base {b : GroupBase} (hbase : d.base = some b) :
    trimRight isBackslash (strip (String.ofList b.chars)) =
      String.ofList (b.name.chars ++ b.before.chars) := by
  obtain ⟨hbefore, hafter, hsegments⟩ := hreadable.legible.base b hbase
  have hb := hproper.base b hbase
  have hopens := UseName.opens_chars hb.name hsegments
  have hcloses : Closes ['\\'] := closes_mark (by decide)
  have hstrip : strip (String.ofList b.chars) =
      String.ofList (b.name.chars ++ b.before.chars ++ ['\\']) := by
    have h := strip_between (List.forall_mem_nil _) ((hopens.append b.before.chars).append ['\\'])
      (hcloses.append (b.name.chars ++ b.before.chars)) (Gap.isBlank_chars hb.after hafter)
    rw [← h, GroupBase.chars]
    simp only [List.nil_append, List.append_assoc, List.cons_append]
  have hlast : ∀ x ∈ (b.name.chars ++ b.before.chars).getLast?, isBackslash x = false := by
    obtain ⟨lead, last, hlead, hchars⟩ := UseName.exists_segments hb.name
    have hidentifier : IsIdentifier last := hb.name.identifiers last (by simp [hlead])
    have hnone : '\\' ∉ last.toList ++ b.before.chars := by
      rw [List.mem_append, not_or]
      exact ⟨hidentifier.not_mem_mark (by decide), Gap.not_mem_mark hb.before hbefore (by decide)⟩
    intro x hx
    rw [hchars, List.append_assoc, List.getLast?_append_of_ne_nil _
      (List.append_ne_nil_of_left_ne_nil hidentifier.toList_ne_nil _)] at hx
    rw [isBackslash, beq_eq_false_iff_ne]
    rintro rfl
    exact hnone (List.mem_of_mem_getLast? hx)
  rw [hstrip, trimRight, String.toList_ofList, dropEndWhile_append (by simp [isBackslash]),
    dropEndWhile_of_last hlast]

theorem importedNames_clauseText : importedNames d.clauseText = d.clauses.map d.written := by
  have hbody : withoutKind (strip d.clauseText) = String.ofList d.body := by
    rw [strip_clauseText hproper hreadable, withoutKind_stem hproper hreadable]
  have hparts {x : Char} (hx : x ∈ Php.marks) (hcomma : ',' ≠ x) (hne : x ≠ '\\') :
      x ∉ [','].intercalate d.parts :=
    not_mem_intercalate hcomma.symm
      (UseDeclaration.not_mem_parts hproper hreadable.legible hx hne)
  have hnames : d.clauses.map (fun c => strip (withoutAlias (String.ofList (d.groupChars ++ c.item)))) =
      d.clauses.map d.written := by
    refine List.map_congr_left fun c hc => ?_
    rw [withoutAlias_written hproper hreadable hc, strip_written hproper hreadable hc]
  rw [← hnames]
  cases hbase : d.base with
  | none =>
    have hlist := UseDeclaration.body_of_list hbase
    have hgroup : group? (String.ofList d.body) = none := by
      rw [hlist]
      exact group?_of_list (hparts (by decide) (by decide) (by decide))
    rw [importedNames_of_list hbody hgroup, hlist, importItems_parts hproper hreadable, List.map_map,
      UseDeclaration.groupChars, hbase]
    simp only [Function.comp_def, Option.map_none, Option.getD_none, List.nil_append]
  | some b =>
    obtain ⟨hbefore, hafter, -⟩ := hreadable.legible.base b hbase
    have hgroup : group? (String.ofList d.body) =
        some (String.ofList b.chars, String.ofList ([','].intercalate d.parts)) := by
      rw [UseDeclaration.body_of_group hbase]
      refine group?_of_group ?_ (hparts (by decide) (by decide) (by decide))
      exact GroupBase.not_mem_mark (hproper.base b hbase) hbefore hafter (by decide) (by decide)
    rw [importedNames_of_group hbody hgroup (trimRight_base hproper hreadable hbase),
      importItems_parts hproper hreadable, List.map_map]
    refine List.map_congr_left fun c _ => ?_
    have hitem : String.ofList (b.name.chars ++ b.before.chars) ++ "\\" ++ String.ofList c.item =
        String.ofList (d.groupChars ++ c.item) := by
      rw [← String.toList_inj, UseDeclaration.groupChars, hbase]
      simp
    rw [Function.comp_apply, hitem]

end Items

/-- A name without a backslash in front. -/
def unrooted (name : String) : String :=
  (afterHead? name "\\").getD name

theorem unrooted_ofList (cs : List Char) : unrooted (String.ofList cs) =
    ((['\\'].isPrefixOf? cs).map String.ofList).getD (String.ofList cs) := by
  rw [unrooted, afterHead?, show "\\".toList = ['\\'] from rfl, String.toList_ofList]

theorem unrooted_cons (cs : List Char) : unrooted (String.ofList ('\\' :: cs)) = String.ofList cs := by
  rw [unrooted_ofList]
  simp [List.isPrefixOf?]

theorem unrooted_of_head {cs : List Char} (h : ∀ c ∈ cs.head?, c ≠ '\\') :
    unrooted (String.ofList cs) = String.ofList cs := by
  rw [unrooted_ofList]
  cases cs with
  | nil => rfl
  | cons c cs =>
    have hne : ('\\' == c) = false := beq_eq_false_iff_ne.2 (h c rfl).symm
    rw [List.isPrefixOf?, hne, if_neg Bool.false_ne_true]
    rfl

theorem mem_unrooted {cs : List Char} {c : Char} (hc : c ∈ cs) (hne : c ≠ '\\') :
    c ∈ (unrooted (String.ofList cs)).toList := by
  by_cases hhead : cs.head? = some '\\'
  · obtain ⟨rest, rfl⟩ := List.head?_eq_some_iff.1 hhead
    rw [unrooted_cons, String.toList_ofList]
    exact (List.mem_cons.1 hc).resolve_left hne
  · rw [unrooted_of_head, String.toList_ofList]
    · exact hc
    · rintro d hd rfl
      exact hhead hd

theorem unrooted_name (rooted : Bool) {segments : List String} (hne : segments ≠ [])
    (hidentifiers : ∀ s ∈ segments, IsIdentifier s) :
    unrooted (String.ofList ((if rooted then ['\\'] else []) ++ (join "\\" segments).toList)) =
      join "\\" segments := by
  cases rooted with
  | true =>
    have h := unrooted_cons (join "\\" segments).toList
    rwa [String.ofList_toList] at h
  | false =>
    have hhead : ∀ c ∈ (join "\\" segments).toList.head?, c ≠ '\\' := by
      obtain hnil | ⟨lead, last, rfl⟩ := List.eq_nil_or_concat segments
      · exact absurd hnil hne
      · rw [List.concat_eq_append] at hidentifiers ⊢
        obtain ⟨s, hs, c, hc, hhead⟩ := head_name
          (fun s hs => hidentifiers s (List.mem_append_left _ hs)) (hidentifiers last (by simp)) []
        rw [List.append_nil] at hhead
        rw [toList_join_concat, hhead]
        rintro d hd rfl
        obtain rfl : c = '\\' := Option.some.inj hd
        exact (hidentifiers s hs).not_mem_mark (by decide) hc
    rw [if_neg Bool.false_ne_true, List.nil_append, unrooted_of_head hhead, String.ofList_toList]

theorem toList_join_append (front : List String) {segments : List String} (hne : segments ≠ []) :
    (join "\\" (front ++ segments)).toList = leadChars front ++ (join "\\" segments).toList := by
  obtain hnil | ⟨lead, last, rfl⟩ := List.eq_nil_or_concat segments
  · exact absurd hnil hne
  · rw [List.concat_eq_append, ← List.append_assoc, toList_join_concat, toList_join_concat,
      leadChars_append, List.append_assoc]

section Names

variable {d : UseDeclaration} (hproper : d.Proper) {c : UseClause} (hc : c ∈ d.clauses)

include hproper hc

/-- A name without blanks in it is written as it is imported. -/
theorem unrooted_written (h : ∀ b ∈ d.base, b.before = []) :
    unrooted (d.written c) = (c.meaning d.commonKind d.front).name := by
  have hname := (hproper.clauses c hc).name
  rw [UseDeclaration.written, UseDeclaration.groupChars, UseDeclaration.front, UseName.chars]
  cases hbase : d.base with
  | none => exact unrooted_name c.name.rooted hname.nonempty hname.identifiers
  | some b =>
    have hb := (hproper.base b hbase).name
    have hroot : c.name.rooted = false := hproper.group (by rw [hbase]; rfl) c hc
    have hidentifiers : ∀ s ∈ b.name.segments ++ c.name.segments, IsIdentifier s :=
      List.forall_mem_append.2 ⟨hb.identifiers, hname.identifiers⟩
    have hread := unrooted_name b.name.rooted (List.append_ne_nil_of_left_ne_nil hb.nonempty _)
      hidentifiers
    rw [toList_join_append _ hname.nonempty, leadChars_of_ne_nil hb.nonempty] at hread
    rw [Option.map_some, Option.getD_some, Option.map_some, Option.getD_some, UseName.chars, hroot,
      h b hbase, if_neg Bool.false_ne_true, UseClause.meaning, ← hread]
    simp only [Gap.chars, List.flatMap_nil, List.append_nil, List.nil_append, List.append_assoc]

/-- A blank in front of the backslash of a group stays in the names. -/
theorem unrooted_written_ne (hlegible : d.Legible) {b : GroupBase} (hbase : d.base = some b)
    (hbefore : b.before ≠ []) :
    unrooted (d.written c) ≠ (c.meaning d.commonKind d.front).name := by
  have hname := (hproper.clauses c hc).name
  obtain ⟨hblank, -, hsegments⟩ := hlegible.base b hbase
  obtain ⟨x, gap, hgap⟩ := List.exists_cons_of_ne_nil (Gap.chars_ne_nil hblank hbefore)
  have hx : isBlank x = true :=
    Gap.isBlank_chars (hproper.base b hbase).before hblank x (by simp [hgap])
  have hne : x ≠ '\\' := by
    rintro rfl
    exact Bool.false_ne_true ((not_isBlank_mark (by decide)).symm.trans hx)
  have hwritten : x ∈ (unrooted (d.written c)).toList := by
    refine mem_unrooted ?_ hne
    rw [UseDeclaration.groupChars, hbase]
    simp [hgap]
  intro heq
  have hfront : d.front = b.name.segments := by rw [UseDeclaration.front, hbase]; rfl
  obtain ⟨lead, last, hlead, -⟩ := UseName.exists_segments hname
  have hunblanked : ∀ s ∈ b.name.segments ++ (lead ++ [last]), Unblanked s := by
    rw [← hlead]
    exact List.forall_mem_append.2 ⟨hsegments, (hlegible.clauses c hc).segments⟩
  rw [heq, UseClause.meaning, hfront, hlead, ← List.append_assoc, toList_join_concat] at hwritten
  rw [← List.append_assoc] at hunblanked
  have hplain : isBlank x = false :=
    @not_isBlank_wholeName false _ last (fun s hs => hunblanked s (List.mem_append_left _ hs))
      (hunblanked last (by simp)) x hwritten
  exact Bool.false_ne_true (hplain.symm.trans hx)

end Names

theorem exists_clauseText {d : UseDeclaration} (hproper : d.Proper) (hlegible : d.Legible)
    (hsemicolon : d.semicolon = true) (rest : String) :
    ∃ clause, importClause.atStart (d.text ++ rest) = some clause ∧
      importedNames clause = importedNames d.clauseText := by
  have hnone : ';' ∉ d.stem ++ d.closing.chars := by
    rw [List.mem_append, not_or]
    exact ⟨UseDeclaration.not_mem_semicolon_stem hproper hlegible,
      Gap.not_mem_mark hproper.closing hlegible.closing (by decide)⟩
  have hline : (d.text ++ rest).toList = d.word.toList ++ (d.gap.chars ++
      (d.stem ++ d.closing.chars ++ ';' :: rest.toList)) := by
    rw [UseDeclaration.text, hsemicolon]
    simp [UseDeclaration.stem]
  obtain ⟨x, hx, -⟩ := UseDeclaration.opens_stem hproper hlegible
  refine exists_clause hproper.word (Gap.isBlank_chars hproper.gap.1 hlegible.gap) hnone hline
    (Gap.chars_ne_nil hlegible.gap hproper.gap.2) ?_
  intro hnil
  rw [(List.append_eq_nil_iff.1 hnil).1] at hx
  cases hx

/-- The names of a declaration are taken out of its clause as they are written, in order, be it by
itself or at the beginning of a line. They are the names that it imports, apart from a backslash in
front, just if no blank stands in front of the backslash of a group. -/
theorem imported_names_read {d : UseDeclaration} (hproper : d.Proper) (hreadable : d.Readable) :
    let names := importedNames d.clauseText
    names = d.clauses.map d.written ∧
    (names.map unrooted = d.imports.map Import.name ↔ ∀ b ∈ d.base, b.before = []) ∧
    (d.semicolon = true → ∀ rest : String, ∃ clause,
      importClause.atStart (d.text ++ rest) = some clause ∧ importedNames clause = names) := by
  intro names
  have hnames : names = d.clauses.map d.written := importedNames_clauseText hproper hreadable
  refine ⟨hnames, ?_, exists_clauseText hproper hreadable.legible⟩
  rw [hnames, UseDeclaration.imports, List.map_map, List.map_map]
  constructor
  · intro h b hbase
    by_contra hbefore
    obtain ⟨c, rest, hclauses⟩ := List.exists_cons_of_ne_nil hproper.nonempty
    have hc : c ∈ d.clauses := by simp [hclauses]
    exact unrooted_written_ne hproper hc hreadable.legible hbase hbefore (List.map_inj_left.1 h c hc)
  · intro h
    exact List.map_congr_left fun c hc => unrooted_written hproper hc h

/-- The declaration `use \App\{M, function f as g, };`. -/
def rootedGroup : UseDeclaration where
  base := some { name := ⟨true, ["App"]⟩ }
  clauses := [{ name := ⟨false, ["M"]⟩ },
    { before := [.blank ' '], kind := some ⟨.function, "function", [.blank ' ']⟩,
      name := ⟨false, ["f"]⟩, knownAs := some ⟨[.blank ' '], "as", [.blank ' '], "g"⟩ }]
  trailing := some [.blank ' ']

theorem rootedGroup_read :
    importedNames "\\App\\\x7bM, function f as g, \x7d" = ["\\App\\M", "\\App\\f"] ∧
    ["\\App\\M", "\\App\\f"].map unrooted = rootedGroup.imports.map Import.name := by
  have hgroup : rootedGroup.Proper ∧ rootedGroup.Readable ∧
      rootedGroup.clauseText = "\\App\\\x7bM, function f as g, \x7d" ∧
      rootedGroup.clauses.map rootedGroup.written = ["\\App\\M", "\\App\\f"] ∧
      ∀ b ∈ rootedGroup.base, b.before = [] := by
    decide +kernel
  obtain ⟨hproper, hreadable, htext, hwritten, hbefore⟩ := hgroup
  have hread := imported_names_read hproper hreadable
  rw [htext, hwritten] at hread
  refine ⟨hread.1, ?_⟩
  rw [← hread.1]
  exact hread.2.1.2 hbefore

/-- The declaration is well formed and legible, and names that it does not import are taken from it. -/
def Misnamed (source : String) (d : UseDeclaration) : Prop :=
  d.Proper ∧ d.Legible ∧ d.text = source ∧
    (importedNames d.clauseText).map unrooted ≠ d.imports.map Import.name

instance (source : String) (d : UseDeclaration) : Decidable (Misnamed source d) :=
  inferInstanceAs (Decidable (_ ∧ _ ∧ _ ∧ _))

/-- A blank in front of the backslash of a group, and a name that equals a kind word when the case of
letters beyond ASCII is ignored. -/
theorem imports_misnamed :
    Misnamed "use A \\\x7bB\x7d;"
      { base := some { name := ⟨false, ["A"]⟩, before := [.blank ' '] },
        clauses := [{ name := ⟨false, ["B"]⟩ }] } ∧
    Misnamed "use conſt as C;"
      { clauses := [{ name := ⟨false, ["conſt"]⟩,
                      knownAs := some ⟨[.blank ' '], "as", [.blank ' '], "C"⟩ }] } := by
  decide +kernel

end PluginAudit.Lines
