import PluginAudit.Proofs.Casing
import PluginAudit.Proofs.Separators
import PluginAudit.Proofs.UseDeclarations
import Mathlib

namespace PluginAudit

namespace Text

theorem sameFolded_self (c : Char) : sameFolded c c = true := by
  simp [sameFolded]

theorem sameFolded_toLower (c : Char) : sameFolded c c.toLower = true := by
  by_cases hc : c.toNat < 128
  · exact ascii_forall (P := fun c => sameFolded c c.toLower = true) (by decide +kernel) hc
  · rw [toLower_of_le (Nat.le_of_not_lt hc)]
    exact sameFolded_self c

end Text

namespace Php

/-- Equal when case is ignored, as among all letters and not only those of ASCII. -/
def FoldsTo (s word : String) : Prop :=
  List.Forall₂ (fun c d => Text.sameFolded c d = true) s.toList word.toList

instance (s word : String) : Decidable (FoldsTo s word) :=
  inferInstanceAs (Decidable (List.Forall₂ _ s.toList word.toList))

/-- The characters that no word and no identifier holds. -/
def stops : List Char := [' ', '\t', '\n', '\r', '\\', ',']

namespace Import

/-- The rest of a text after a word, whatever its case. -/
def afterLetters? : List Char → List Char → Option (List Char)
  | [], cs => some cs
  | _ :: _, [] => none
  | w :: ws, c :: cs => if Text.sameFolded c w then afterLetters? ws cs else none

theorem afterLetters?_eq (ws cs : List Char) :
    afterLetters? ws cs =
      if (cs.take ws.length).length == ws.length &&
        ((cs.take ws.length).zip ws).all fun p => Text.sameFolded p.1 p.2
      then some (cs.drop ws.length) else none := by
  induction ws generalizing cs with
  | nil => simp [afterLetters?]
  | cons w ws ih =>
    cases cs with
    | nil => simp [afterLetters?]
    | cons c cs =>
      rw [afterLetters?, ih]
      by_cases hc : Text.sameFolded c w = true
      · have hlength : ((cs.take ws.length).length + 1 == ws.length + 1) =
            ((cs.take ws.length).length == ws.length) := by
          rw [Bool.eq_iff_iff, beq_iff_eq, beq_iff_eq, Nat.add_right_cancel_iff]
        rw [if_pos hc, List.length_cons, List.take_succ_cons, List.zip_cons_cons, List.all_cons, hc,
          List.length_cons, hlength, Bool.true_and, List.drop_succ_cons]
      · simp [hc]

theorem afterWord?_eq (word : String) (cs : List Char) :
    afterWord? word cs = (afterLetters? word.toList cs).bind fun rest =>
      if rest.head?.any Text.isBlank then some (rest.dropWhile Text.isBlank) else none := by
  rw [afterLetters?_eq, afterWord?, String.length_toList]
  generalize ((cs.take word.length).length == word.length &&
    ((cs.take word.length).zip word.toList).all fun p => Text.sameFolded p.1 p.2) = matched
  cases matched <;> rfl

theorem afterLetters?_of_folds {cs ws : List Char}
    (h : List.Forall₂ (fun c d => Text.sameFolded c d = true) cs ws) (rest : List Char) :
    afterLetters? ws (cs ++ rest) = some rest := by
  induction h with
  | nil => rfl
  | cons hc _ ih => rw [List.cons_append, afterLetters?, if_pos hc, ih]

/-- What is left after the letters of a word, in a text of an identifier and a stop behind it. -/
theorem of_afterLetters? {cs ws rest out : List Char} (h : afterLetters? ws (cs ++ rest) = some out)
    (hrest : ∀ c ∈ rest.head?, ∀ w ∈ ws, Text.sameFolded c w = false) :
    (List.Forall₂ (fun c d => Text.sameFolded c d = true) cs ws ∧ out = rest) ∨
      ∃ c ∈ cs, out.head? = some c := by
  induction ws generalizing cs with
  | nil =>
    cases Option.some.inj h
    cases cs with
    | nil => exact .inl ⟨.nil, rfl⟩
    | cons c cs => exact .inr ⟨c, List.mem_cons_self, rfl⟩
  | cons w ws ih =>
    cases cs with
    | nil =>
      cases rest with
      | nil => cases h
      | cons c rest =>
        rw [List.nil_append, afterLetters?, hrest c rfl w List.mem_cons_self] at h
        cases h
    | cons c cs =>
      rw [List.cons_append, afterLetters?] at h
      split at h
      case isFalse => cases h
      case isTrue hc =>
        obtain ⟨hfolds, hout⟩ | ⟨d, hd, hout⟩ :=
          ih h fun c hc w hw => hrest c hc w (List.mem_cons_of_mem _ hw)
        · exact .inl ⟨.cons hc hfolds, hout⟩
        · exact .inr ⟨d, List.mem_cons_of_mem _ hd, hout⟩

end Import

section Characters

/-- The characters that tell the names, the imports and the end of a declaration apart. -/
def marks : List Char := ['\\', ',', '\x7b', '\x7d', ';']

/-- The letters that the words of a declaration are made of. -/
def useLetters : List Char := "functionconstas".toList

theorem useWords_plain : ∀ word ∈ useWords, word ≠ "" ∧
    (∀ c ∈ word.toList, Text.isBlank c = false) ∧ ∀ x ∈ marks, x ∉ word.toList := by
  have h : ∀ word ∈ useWords, word ≠ "" ∧ (word.toList.all fun c => !Text.isBlank c) = true ∧
      (marks.all fun x => !word.toList.contains x) = true := by
    decide +kernel
  simpa using h

theorem sameFolded_stop : ∀ c ∈ stops, ∀ w ∈ useLetters, Text.sameFolded c w = false := by
  have h : (stops.all fun c => useLetters.all fun w => !Text.sameFolded c w) = true := by
    decide +kernel
  simpa using h

theorem marks_plain : ∀ x ∈ marks, x.toLower = x ∧ x ∉ [' ', '\t', '\n', '\r'] ∧
    x.isAlphanum = false ∧ x ≠ '_' ∧ x.toNat < 128 := by
  have h : (marks.all fun x => decide (x.toLower = x ∧ x ∉ [' ', '\t', '\n', '\r'] ∧
      x.isAlphanum = false ∧ x ≠ '_' ∧ x.toNat < 128)) = true := by
    decide +kernel
  exact fun x hx => of_decide_eq_true (List.all_eq_true.1 h x hx)

theorem not_isBlank_mark {x : Char} (hx : x ∈ marks) : Text.isBlank x = false := by
  have h : (marks.all fun x => !Text.isBlank x) = true := by decide +kernel
  simpa using List.all_eq_true.1 h x hx

theorem closes_mark {x : Char} (hx : x ∈ marks) : Text.Closes [x] :=
  ⟨x, rfl, not_isBlank_mark hx⟩

theorem backslash_mem_stops : '\\' ∈ stops := by
  decide

namespace Spells

variable {written word : String} (h : Spells written word)

include h

theorem not_mem_mark (hword : word ∈ useWords) {x : Char} (hx : x ∈ marks) : x ∉ written.toList := by
  intro hmem
  refine (useWords_plain word hword).2.2 x hx ?_
  rw [← h, ← (marks_plain x hx).1]
  exact List.mem_map_of_mem hmem

theorem foldsTo : FoldsTo written word := by
  rw [FoldsTo, ← h, List.forall₂_map_right_iff, List.forall₂_same]
  exact fun c _ => Text.sameFolded_toLower c

theorem not_isBlank (hword : word ∈ useWords) : ∀ c ∈ written.toList, Text.isBlank c = false := by
  intro c hc
  rw [← Text.isBlank_toLower]
  refine (useWords_plain word hword).2.1 _ ?_
  rw [← h]
  exact List.mem_map_of_mem hc

theorem ascii (hword : word ∈ useWords) : ∀ c ∈ written.toList, c.toNat < 128 := by
  have hascii : ∀ word ∈ useWords, (word.toList.all fun c => decide (c.toNat < 128)) = true := by
    decide +kernel
  intro c hc
  by_contra hle
  have hmem : c.toLower ∈ word.toList := by
    rw [← h]
    exact List.mem_map_of_mem hc
  rw [Text.toLower_of_le (Nat.le_of_not_lt hle)] at hmem
  exact hle (of_decide_eq_true (List.all_eq_true.1 (hascii word hword) _ hmem))

theorem opens (hword : word ∈ useWords) : Text.Opens written.toList := by
  refine Text.opens_of_not_isBlank (fun hnil => (useWords_plain word hword).1 ?_)
    (h.not_isBlank hword)
  rw [Spells, hnil, List.map_nil] at h
  exact String.toList_eq_nil_iff.1 h.symm

end Spells

theorem IsIdentifier.not_mem_mark {s : String} (h : IsIdentifier s) {x : Char} (hx : x ∈ marks) :
    x ∉ s.toList := by
  obtain ⟨-, -, halpha, hscore, hlt⟩ := marks_plain x hx
  intro hmem
  obtain h | h | h := h.2.1 x hmem
  · rw [halpha] at h
    cases h
  · exact hscore h
  · exact Nat.not_lt_of_le h hlt

theorem IsIdentifier.toList_ne_nil {s : String} (h : IsIdentifier s) : s.toList ≠ [] := by
  simpa using h.1

theorem Gap.mem_chars {g : Gap} (hproper : g.Proper) (hblank : g.Blank) {c : Char}
    (hc : c ∈ g.chars) : c ∈ [' ', '\t', '\n', '\r'] := by
  obtain ⟨t, ht, hc⟩ := List.mem_flatMap.1 hc
  have hproper := hproper t ht
  have hblank := hblank t ht
  cases t with
  | blank d =>
    obtain rfl := List.mem_singleton.1 hc
    exact hproper
  | block | line => cases hblank

theorem Gap.not_mem_mark {g : Gap} (hproper : g.Proper) (hblank : g.Blank) {x : Char}
    (hx : x ∈ marks) : x ∉ g.chars :=
  fun hmem => (marks_plain x hx).2.1 (Gap.mem_chars hproper hblank hmem)

theorem Gap.isBlank_chars {g : Gap} (hproper : g.Proper) (hblank : g.Blank) :
    ∀ c ∈ g.chars, Text.isBlank c = true := by
  intro c hc
  have h : [' ', '\t', '\n', '\r'].all Text.isBlank = true := by decide +kernel
  exact List.all_eq_true.1 h c (Gap.mem_chars hproper hblank hc)

theorem Gap.chars_ne_nil {g : Gap} (hblank : g.Blank) (hne : g ≠ []) : g.chars ≠ [] := by
  cases g with
  | nil => exact absurd rfl hne
  | cons t rest =>
    have ht := hblank t List.mem_cons_self
    cases t with
    | blank c => exact List.cons_ne_nil c _
    | block | line => cases ht

theorem Gap.head_stop {g : Gap} (hproper : g.Proper) (hblank : g.Blank) (hne : g ≠ [])
    (rest : List Char) : ∀ c ∈ (g.chars ++ rest).head?, c ∈ stops := by
  obtain ⟨d, ds, hd⟩ := List.exists_cons_of_ne_nil (Gap.chars_ne_nil hblank hne)
  have hmem : d ∈ g.chars := by rw [hd]; exact List.mem_cons_self
  intro c hc
  rw [hd] at hc
  cases hc
  exact List.mem_append_left ['\\', ','] (Gap.mem_chars hproper hblank hmem)

end Characters

namespace Import

theorem afterWord?_of_spells {written word : String} (h : Spells written word) {gap rest : List Char}
    (hgap : ∀ c ∈ gap, Text.isBlank c = true) (hne : gap ≠ [])
    (hrest : ∀ c ∈ rest.head?, Text.isBlank c = false) :
    afterWord? word (written.toList ++ gap ++ rest) = some rest := by
  obtain ⟨c, cs, rfl⟩ := List.exists_cons_of_ne_nil hne
  have hc : Text.isBlank c = true := hgap c List.mem_cons_self
  rw [afterWord?_eq, List.append_assoc, afterLetters?_of_folds h.foldsTo, Option.bind_some]
  rw [List.cons_append, List.head?_cons, Option.any_some, if_pos hc, ← List.cons_append,
    List.dropWhile_append_of_pos hgap, Text.dropWhile_of_head hrest]

/-- An identifier is not taken for a word that it does not fold to, nor if no blank follows it. -/
theorem afterWord?_eq_none {s word : String} (hword : word.toList.all useLetters.contains = true)
    (hs : ∀ c ∈ s.toList, Text.isBlank c = false) {rest : List Char}
    (hrest : ∀ c ∈ rest.head?, c ∈ stops)
    (h : FoldsTo s word → ∀ c ∈ rest.head?, Text.isBlank c = false) :
    afterWord? word (s.toList ++ rest) = none := by
  rw [afterWord?_eq]
  cases hletters : afterLetters? word.toList (s.toList ++ rest) with
  | none => rfl
  | some out =>
    have hout : ∀ c ∈ out.head?, Text.isBlank c = false := by
      obtain ⟨hfolds, rfl⟩ | ⟨c, hc, hout⟩ := of_afterLetters? hletters
        fun c hc w hw => sameFolded_stop c (hrest c hc) w
          (List.contains_iff_mem.1 (List.all_eq_true.1 hword w hw))
      · exact h hfolds
      · intro d hd
        rw [hout] at hd
        cases hd
        exact hs c hc
    have hany : out.head?.any Text.isBlank = false := by
      cases hhead : out.head? with
      | none => rfl
      | some c => exact hout c hhead
    rw [Option.bind_some, hany, if_neg Bool.false_ne_true]

/-- The text starts with `function` or `const` in front of a blank, when case is ignored. -/
theorem kind?_eq_none {s : String} (hs : ∀ c ∈ s.toList, Text.isBlank c = false) {rest : List Char}
    (hrest : ∀ c ∈ rest.head?, c ∈ stops)
    (h : (∀ word ∈ ["function", "const"], ¬ FoldsTo s word) ∨
      ∀ c ∈ rest.head?, Text.isBlank c = false) : kind? (s.toList ++ rest) = none := by
  have hnone : ∀ word ∈ ["function", "const"], afterWord? word (s.toList ++ rest) = none := by
    intro word hword
    have hletters : ∀ word ∈ ["function", "const"], word.toList.all useLetters.contains = true := by
      decide
    refine afterWord?_eq_none (hletters word hword) hs hrest fun hfolds => ?_
    obtain h | h := h
    · exact absurd hfolds (h word hword)
    · exact h
  rw [kind?, hnone "function" (by simp), hnone "const" (by simp), Option.map_none]

theorem kind?_chars {k : KindWord} (hproper : k.Proper) (hblank : k.gap.Blank) {rest : List Char}
    (hrest : ∀ c ∈ rest.head?, Text.isBlank c = false) :
    kind? (k.chars ++ rest) = some (k.kind, rest) := by
  obtain ⟨kind, word, gap⟩ := k
  obtain ⟨hkind, hword, hgap, hne⟩ := hproper
  have hblanks : ∀ c ∈ gap.chars, Text.isBlank c = true := Gap.isBlank_chars hgap hblank
  have hchars : gap.chars ≠ [] := Gap.chars_ne_nil hblank hne
  cases kind with
  | className => exact absurd rfl hkind
  | function =>
    have hword : Spells word "function" := hword
    rw [kind?, KindWord.chars, afterWord?_of_spells hword hblanks hchars hrest]
  | const =>
    have hword : Spells word "const" := hword
    have hnone : afterWord? "function" (word.toList ++ (gap.chars ++ rest)) = none := by
      refine afterWord?_eq_none (by decide) (hword.not_isBlank (by decide))
        (Gap.head_stop hgap hblank hne rest) fun hfolds => ?_
      have hlength : word.toList.length = 5 := by
        simpa using congrArg List.length hword
      have hfolded : word.toList.length = 8 := hfolds.length_eq
      omega
    rw [kind?, KindWord.chars, List.append_assoc]
    dsimp only
    rw [hnone, ← List.append_assoc, afterWord?_of_spells hword hblanks hchars hrest]
    rfl

end Import

/-- No character of the identifier counts as white space; those beyond ASCII can. -/
def Unblanked (s : String) : Prop :=
  ∀ c ∈ s.toList, Text.isBlank c = false

instance : DecidablePred Unblanked :=
  fun s => List.decidableBAll _ s.toList

structure UseAlias.Plain (a : UseAlias) : Prop where
  before : a.before.Blank
  gap : a.gap.Blank
  name : Unblanked a.name

instance : DecidablePred UseAlias.Plain :=
  fun a => decidable_of_iff (a.before.Blank ∧ a.gap.Blank ∧ Unblanked a.name)
    ⟨fun ⟨before, gap, name⟩ => ⟨before, gap, name⟩, fun ⟨before, gap, name⟩ => ⟨before, gap, name⟩⟩

theorem UseAlias.not_mem_mark {a : UseAlias} (hproper : a.Proper) (hplain : a.Plain) {x : Char}
    (hx : x ∈ marks) : x ∉ a.chars := by
  rw [chars, List.mem_append, List.mem_append, List.mem_append, not_or, not_or, not_or]
  exact ⟨⟨⟨Gap.not_mem_mark hproper.before.1 hplain.before hx,
    hproper.word.not_mem_mark (by decide) hx⟩, Gap.not_mem_mark hproper.gap.1 hplain.gap hx⟩,
    hproper.name.1.not_mem_mark hx⟩

theorem UseAlias.head_stop {a : UseAlias} (hproper : a.Proper) (hplain : a.Plain) (rest : List Char) :
    ∀ c ∈ (a.chars ++ rest).head?, c ∈ stops := by
  rw [chars]
  simp only [List.append_assoc]
  exact Gap.head_stop hproper.before.1 hplain.before hproper.before.2 _

theorem KindWord.Proper.label_mem {k : KindWord} (h : k.Proper) : k.kind.label ∈ useWords := by
  have hkind := h.kind
  cases hk : k.kind with
  | className => exact absurd hk hkind
  | function | const => decide

theorem KindWord.not_mem_mark {k : KindWord} (hproper : k.Proper) (hblank : k.gap.Blank) {x : Char}
    (hx : x ∈ marks) : x ∉ k.chars := by
  rw [chars, List.mem_append, not_or]
  exact ⟨hproper.word.not_mem_mark hproper.label_mem hx, Gap.not_mem_mark hproper.gap.1 hblank hx⟩

theorem UseAlias.closes_chars {a : UseAlias} (hproper : a.Proper) (hplain : a.Plain) :
    Text.Closes a.chars :=
  (Text.closes_of_not_isBlank hproper.name.1.toList_ne_nil hplain.name).append _

theorem KindWord.opens_chars {k : KindWord} (hproper : k.Proper) : Text.Opens k.chars :=
  (hproper.word.opens hproper.label_mem).append _

/-- The segments of a name, each with the backslash behind it. -/
def leadChars (lead : List String) : List Char :=
  lead.flatMap fun s => s.toList ++ ['\\']

theorem toList_join_concat (lead : List String) (last : String) :
    (Text.join "\\" (lead ++ [last])).toList = leadChars lead ++ last.toList := by
  rw [Text.join, String.toList_intercalate]
  induction lead with
  | nil => simp [leadChars]
  | cons s rest ih =>
    rw [List.cons_append, List.map_cons, List.intercalate_cons_of_ne_nil (by simp), ih]
    simp [leadChars]

theorem join_concat_ne (lead : List String) {last : String} (hlast : IsIdentifier last) :
    Text.join "\\" (lead ++ [last]) ≠ "" := by
  intro h
  have hempty := toList_join_concat lead last
  rw [h] at hempty
  exact hlast.toList_ne_nil (List.append_eq_nil_iff.1 hempty.symm).2

theorem leadChars_append (front lead : List String) :
    leadChars (front ++ lead) = leadChars front ++ leadChars lead :=
  List.flatMap_append

theorem leadChars_cases (lead : List String) :
    leadChars lead = [] ∨ ∃ before, leadChars lead = before ++ ['\\'] := by
  rcases List.eq_nil_or_concat lead with rfl | ⟨init, last, rfl⟩
  · exact .inl rfl
  · exact .inr ⟨leadChars init ++ last.toList, by simp [leadChars]⟩

namespace Import

theorem splitAlias_of_not_blank {cs : List Char} (h : ∀ c ∈ cs, Text.isBlank c = false)
    (part : List Char) (parts : List String) (fuel : Nat) :
    splitAlias part parts fuel cs = (String.ofList (part.reverse ++ cs) :: parts).reverse := by
  induction cs generalizing part fuel with
  | nil => cases fuel <;> simp [splitAlias]
  | cons c rest ih =>
    obtain ⟨hc, hrest⟩ := List.forall_mem_cons.1 h
    cases fuel with
    | zero => rfl
    | succ fuel =>
      rw [splitAlias, hc, if_neg Bool.false_ne_true, ih hrest]
      simp

theorem splitAlias_of_alias {cs : List Char} (h : ∀ c ∈ cs, Text.isBlank c = false) {a : UseAlias}
    (hproper : a.Proper) (hplain : a.Plain) (part : List Char) {fuel : Nat} (hfuel : cs.length < fuel) :
    splitAlias part [] fuel (cs ++ a.chars) = [String.ofList (part.reverse ++ cs), a.name] := by
  induction cs generalizing part fuel with
  | nil =>
    obtain ⟨fuel, rfl⟩ := Nat.exists_eq_add_one_of_ne_zero (Nat.ne_zero_of_lt hfuel)
    have hbefore := Gap.isBlank_chars hproper.before.1 hplain.before
    obtain ⟨c, gap, hgap⟩ :=
      List.exists_cons_of_ne_nil (Gap.chars_ne_nil hplain.before hproper.before.2)
    rw [hgap] at hbefore
    obtain ⟨hc, hgap'⟩ := List.forall_mem_cons.1 hbefore
    have hname : ∀ c ∈ a.name.toList.head?, Text.isBlank c = false :=
      fun c hc => hplain.name c (List.mem_of_mem_head? hc)
    have hword : ∀ c ∈ (a.word.toList ++ a.gap.chars ++ a.name.toList).head?,
        Text.isBlank c = false := by
      rw [List.append_assoc]
      exact ((hproper.word.opens (by decide)).append _).head_not_isBlank
    rw [List.nil_append, UseAlias.chars, hgap]
    simp only [List.cons_append, List.append_assoc]
    rw [splitAlias, if_pos hc, List.dropWhile_append_of_pos hgap', ← List.append_assoc,
      Text.dropWhile_of_head hword, afterWord?_of_spells hproper.word
        (Gap.isBlank_chars hproper.gap.1 hplain.gap) (Gap.chars_ne_nil hplain.gap hproper.gap.2) hname]
    dsimp only
    rw [splitAlias_of_not_blank hplain.name]
    simp
  | cons c rest ih =>
    obtain ⟨hc, hrest⟩ := List.forall_mem_cons.1 h
    obtain ⟨fuel, rfl⟩ := Nat.exists_eq_add_one_of_ne_zero (Nat.ne_zero_of_lt hfuel)
    rw [List.cons_append, splitAlias, hc, if_neg Bool.false_ne_true,
      ih hrest (c :: part) (Nat.lt_of_succ_lt_succ hfuel)]
    simp

end Import

/-- What stands in front of the last segment of a name. -/
def nameFront (rooted : Bool) (lead : List String) : List Char :=
  (if rooted then ['\\'] else []) ++ leadChars lead

section NameFront

variable {rooted : Bool} {lead : List String} {last : String}

theorem nameFront_cases (rooted : Bool) (lead : List String) :
    nameFront rooted lead = [] ∨ ∃ before, nameFront rooted lead = before ++ ['\\'] := by
  rw [nameFront]
  obtain h | ⟨before, h⟩ := leadChars_cases lead
  · rw [h, List.append_nil]
    cases rooted
    · exact .inl rfl
    · exact .inr ⟨[], rfl⟩
  · exact .inr ⟨(if rooted then ['\\'] else []) ++ before, by rw [h, List.append_assoc]⟩

theorem lastPart_nameFront {cs : List Char} (h : '\\' ∉ cs) :
    Text.lastPart '\\' (String.ofList (nameFront rooted lead ++ cs)) = String.ofList cs := by
  obtain hfront | ⟨before, hfront⟩ := nameFront_cases rooted lead
  · rw [hfront, List.nil_append, Text.lastPart_of_not_mem h]
  · rw [hfront, List.append_assoc, List.singleton_append, Text.lastPart_append h]

theorem lastPart_join (h : '\\' ∉ last.toList) :
    Text.lastPart '\\' (Text.join "\\" (lead ++ [last])) = last := by
  have hname : Text.join "\\" (lead ++ [last]) =
      String.ofList (nameFront false lead ++ last.toList) := by
    rw [← String.toList_inj, String.toList_ofList, toList_join_concat]
    rfl
  rw [hname, lastPart_nameFront h, String.ofList_toList]

theorem not_isBlank_nameFront (hlead : ∀ s ∈ lead, Unblanked s) :
    ∀ c ∈ nameFront rooted lead, Text.isBlank c = false := by
  have hbackslash : Text.isBlank '\\' = false := not_isBlank_mark (by decide)
  intro c hc
  obtain hc | hc := List.mem_append.1 hc
  · have hc : c = '\\' := by
      cases rooted with
      | false => cases hc
      | true => exact List.mem_singleton.1 hc
    rw [hc, hbackslash]
  · obtain ⟨s, hs, hc⟩ := List.mem_flatMap.1 hc
    obtain hc | hc := List.mem_append.1 hc
    · exact hlead s hs c hc
    · rw [List.mem_singleton.1 hc, hbackslash]

theorem not_isBlank_wholeName (hlead : ∀ s ∈ lead, Unblanked s) (hlast : Unblanked last) :
    ∀ c ∈ nameFront rooted lead ++ last.toList, Text.isBlank c = false := by
  intro c hc
  obtain hc | hc := List.mem_append.1 hc
  · exact not_isBlank_nameFront hlead c hc
  · exact hlast c hc

theorem head_name (hlead : ∀ s ∈ lead, IsIdentifier s) (hlast : IsIdentifier last) (rest : List Char) :
    ∃ s ∈ lead ++ [last], ∃ c ∈ s.toList, (leadChars lead ++ last.toList ++ rest).head? = some c := by
  cases lead with
  | nil =>
    obtain ⟨c, cs, hc⟩ := List.exists_cons_of_ne_nil hlast.toList_ne_nil
    exact ⟨last, by simp, c, by simp [hc], by simp [leadChars, hc]⟩
  | cons s lead =>
    obtain ⟨c, cs, hc⟩ :=
      List.exists_cons_of_ne_nil (hlead s List.mem_cons_self).toList_ne_nil
    exact ⟨s, by simp, c, by simp [hc], by simp [leadChars, hc]⟩

/-- No backslash around a name belongs to it. -/
theorem trimBackslashes_around (hlead : ∀ s ∈ lead, IsIdentifier s) (hlast : IsIdentifier last)
    {after : List Char} (hafter : ∀ c ∈ after, (c == '\\') = true) :
    Text.trimBackslashes (String.ofList (nameFront rooted lead ++ last.toList ++ after)) =
      Text.join "\\" (lead ++ [last]) := by
  have hroot : ∀ c ∈ (if rooted then ['\\'] else []), (c == '\\') = true := by
    cases rooted <;> simp
  have hidentifier : ∀ s ∈ lead ++ [last], '\\' ∉ s.toList := by
    intro s hs
    refine IsIdentifier.not_mem_mark ?_ (by decide)
    obtain hs | hs := List.mem_append.1 hs
    · exact hlead s hs
    · rw [List.mem_singleton.1 hs]
      exact hlast
  have hhead : ∀ c ∈ (leadChars lead ++ last.toList).head?, (c == '\\') = false := by
    intro c hc
    obtain ⟨s, hs, d, hd, hhead⟩ := head_name hlead hlast []
    rw [List.append_nil] at hhead
    rw [hhead] at hc
    cases hc
    simpa using fun heq : c = '\\' => hidentifier s hs (heq ▸ hd)
  have htail : ∀ c ∈ (leadChars lead ++ last.toList).getLast?, (c == '\\') = false := by
    intro c hc
    rw [List.getLast?_append_of_ne_nil _ hlast.toList_ne_nil] at hc
    simpa using fun heq : c = '\\' => hidentifier last (by simp) (heq ▸ List.mem_of_getLast? hc)
  have h := Text.trim_between hroot hafter hhead htail
  rw [← String.ofList_toList (s := Text.join "\\" (lead ++ [last])), toList_join_concat, ← h,
    nameFront]
  simp only [List.append_assoc]
  rfl

theorem trimBackslashes_name (hlead : ∀ s ∈ lead, IsIdentifier s ∧ Unblanked s)
    (hlast : IsIdentifier last ∧ Unblanked last) :
    Text.trimBackslashes (Text.strip (String.ofList (nameFront rooted lead ++ last.toList))) =
      Text.join "\\" (lead ++ [last]) := by
  have hblank := @not_isBlank_wholeName rooted lead last (fun s hs => (hlead s hs).2) hlast.2
  have hne : nameFront rooted lead ++ last.toList ≠ [] :=
    List.append_ne_nil_of_right_ne_nil _ hlast.1.toList_ne_nil
  have h := @trimBackslashes_around rooted lead last (fun s hs => (hlead s hs).1) hlast.1 []
    (List.forall_mem_nil _)
  rw [List.append_nil] at h
  rw [Text.strip_of_opens (Text.opens_of_not_isBlank hne hblank)
    (Text.closes_of_not_isBlank hne hblank), h]

end NameFront

namespace Import

/-- The import that the texts before and after an `as` make up. -/
def ofParts? (kind : ImportKind) (parts : List String) : Option Import :=
  let name := Text.trimBackslashes (Text.strip (parts.headD ""))
  if name == "" then none
  else match parts with
    | _ :: knownAs :: _ => some ⟨kind, name, Text.strip knownAs⟩
    | _ => some ⟨kind, name, Text.lastPart '\\' name⟩

theorem ofItem?_of_no_kind {item : String} (h : kind? (Text.lastPart '\\' item).toList = none)
    (kind : ImportKind) :
    ofItem? kind item = ofParts? kind (splitAlias [] [] (item.length + 1) item.toList) := by
  rw [ofItem?, h]
  rfl

theorem ofItem?_of_kind {before last rest : List Char} {k : ImportKind}
    (hlast : Text.lastPart '\\' (String.ofList (before ++ last)) = String.ofList last)
    (h : kind? last = some (k, rest)) (kind : ImportKind) :
    ofItem? kind (String.ofList (before ++ last)) =
      ofParts? k (splitAlias [] [] ((before ++ rest).length + 1) (before ++ rest)) := by
  have hbefore : Text.takeChars ((String.ofList (before ++ last)).length - (String.ofList last).length)
      (String.ofList (before ++ last)) = String.ofList before := by
    rw [Text.takeChars, String.toList_ofList, String.length_ofList, String.length_ofList,
      List.length_append, Nat.add_sub_cancel, List.take_left]
  rw [ofItem?, hlast, String.toList_ofList, h, hbefore]
  dsimp only
  rw [← String.ofList_append, String.toList_ofList, String.length_ofList]
  rfl

theorem ofParts?_cons (kind : ImportKind) {first name : String} (rest : List String)
    (hname : Text.trimBackslashes (Text.strip first) = name) (hne : name ≠ "") :
    ofParts? kind (first :: rest) =
      some ⟨kind, name, (rest.head?.map Text.strip).getD (Text.lastPart '\\' name)⟩ := by
  unfold ofParts?
  rw [List.headD_cons, hname, if_neg (by simpa using hne)]
  cases rest <;> rfl

/-- The name is what stands in front of the `as`, and it is known by its last segment without one. -/
theorem ofParts?_of_name (kind : ImportKind) {rooted : Bool} {lead : List String} {last : String}
    {a : Option UseAlias} (hlead : ∀ s ∈ lead, IsIdentifier s ∧ Unblanked s)
    (hlast : IsIdentifier last ∧ Unblanked last) (ha : ∀ w ∈ a, w.Proper ∧ w.Plain) :
    ofParts? kind (String.ofList (nameFront rooted lead ++ last.toList) ::
        (a.map UseAlias.name).toList) =
      some ⟨kind, Text.join "\\" (lead ++ [last]), (a.map UseAlias.name).getD last⟩ := by
  have hname := @trimBackslashes_name rooted lead last hlead hlast
  rw [ofParts?_cons kind _ hname (join_concat_ne lead hlast.1)]
  cases a with
  | none =>
    rw [lastPart_join (hlast.1.not_mem_mark (by decide))]
    rfl
  | some w =>
    have hblank := (ha w rfl).2.name
    have hletters := (ha w rfl).1.name.1.toList_ne_nil
    have hstrip : Text.strip w.name = w.name := by
      have h := Text.strip_of_opens (Text.opens_of_not_isBlank hletters hblank)
        (Text.closes_of_not_isBlank hletters hblank)
      rwa [String.ofList_toList] at h
    simp only [Option.map_some, Option.toList_some, List.head?_cons, Option.getD_some, hstrip]

theorem splitAlias_name {rooted : Bool} {lead : List String} {last : String} {a : Option UseAlias}
    (hlead : ∀ s ∈ lead, IsIdentifier s ∧ Unblanked s) (hlast : IsIdentifier last ∧ Unblanked last)
    (ha : ∀ w ∈ a, w.Proper ∧ w.Plain) {fuel : Nat}
    (hfuel : (nameFront rooted lead ++ (last.toList ++ (a.map UseAlias.chars).getD [])).length < fuel) :
    splitAlias [] [] fuel (nameFront rooted lead ++ (last.toList ++ (a.map UseAlias.chars).getD [])) =
      String.ofList (nameFront rooted lead ++ last.toList) :: (a.map UseAlias.name).toList := by
  have hblank := @not_isBlank_wholeName rooted lead last (fun s hs => (hlead s hs).2) hlast.2
  rw [← List.append_assoc] at hfuel ⊢
  cases a with
  | none =>
    rw [Option.map_none, Option.getD_none, List.append_nil, splitAlias_of_not_blank hblank]
    rfl
  | some w =>
    rw [List.length_append] at hfuel
    exact splitAlias_of_alias hblank (ha w rfl).1 (ha w rfl).2 [] (by omega)

theorem backslash_not_mem_last {last : String} {a : Option UseAlias} (hlast : IsIdentifier last)
    (ha : ∀ w ∈ a, w.Proper ∧ w.Plain) :
    '\\' ∉ last.toList ++ (a.map UseAlias.chars).getD [] := by
  rw [List.mem_append, not_or]
  refine ⟨hlast.not_mem_mark (by decide), ?_⟩
  cases a with
  | none => exact List.not_mem_nil
  | some w => exact UseAlias.not_mem_mark (ha w rfl).1 (ha w rfl).2 (by decide)

/-- In front of an `as` a last segment that does not read as a kind tells none, and without an `as`
none does. -/
theorem kind?_last {last : String} {a : Option UseAlias} (hlast : Unblanked last)
    (ha : ∀ w ∈ a, w.Proper ∧ w.Plain)
    (hfolds : a.isSome = true → ∀ word ∈ ["function", "const"], ¬ FoldsTo last word) :
    kind? (last.toList ++ (a.map UseAlias.chars).getD []) = none := by
  cases a with
  | none => exact kind?_eq_none hlast (by simp) (.inr (by simp))
  | some w =>
    have hstop := UseAlias.head_stop (ha w rfl).1 (ha w rfl).2 []
    rw [List.append_nil] at hstop
    exact kind?_eq_none hlast hstop (.inl (hfolds rfl))

/-- One import is read as it is written: its own kind stands in front of its last segment, if it tells
one, and in front of an `as` the last segment does not read as a kind. -/
theorem ofItem?_eq (kind : ImportKind) (rooted : Bool) {lead : List String} {last : String}
    {k : Option KindWord} {a : Option UseAlias}
    (hlead : ∀ s ∈ lead, IsIdentifier s ∧ Unblanked s) (hlast : IsIdentifier last ∧ Unblanked last)
    (hk : ∀ w ∈ k, w.Proper ∧ w.gap.Blank) (ha : ∀ w ∈ a, w.Proper ∧ w.Plain)
    (hfolds : a.isSome = true → ∀ word ∈ ["function", "const"], ¬ FoldsTo last word) :
    ofItem? kind (String.ofList (nameFront rooted lead ++
        ((k.map KindWord.chars).getD [] ++ (last.toList ++ (a.map UseAlias.chars).getD [])))) =
      some ⟨(k.map KindWord.kind).getD kind, Text.join "\\" (lead ++ [last]),
        (a.map UseAlias.name).getD last⟩ := by
  have hbackslash := backslash_not_mem_last hlast.1 ha
  cases k with
  | none =>
    rw [Option.map_none, Option.getD_none, List.nil_append, Option.map_none, Option.getD_none]
    rw [ofItem?_of_no_kind, String.toList_ofList, String.length_ofList,
      splitAlias_name hlead hlast ha (Nat.lt_succ_self _), ofParts?_of_name kind hlead hlast ha]
    rw [lastPart_nameFront hbackslash, String.toList_ofList, kind?_last hlast.2 ha hfolds]
  | some w =>
    obtain ⟨hw, hgap⟩ := hk w rfl
    rw [Option.map_some, Option.getD_some, Option.map_some, Option.getD_some]
    have hkind : kind? (w.chars ++ (last.toList ++ (a.map UseAlias.chars).getD [])) =
        some (w.kind, last.toList ++ (a.map UseAlias.chars).getD []) := by
      refine kind?_chars hw hgap fun c hc => hlast.2 c ?_
      rw [List.head?_append_of_ne_nil _ hlast.1.toList_ne_nil] at hc
      exact List.mem_of_mem_head? hc
    have hbackslash' : '\\' ∉ w.chars ++ (last.toList ++ (a.map UseAlias.chars).getD []) := by
      rw [List.mem_append, not_or]
      exact ⟨KindWord.not_mem_mark hw hgap (by decide), hbackslash⟩
    rw [ofItem?_of_kind (lastPart_nameFront hbackslash') hkind,
      splitAlias_name hlead hlast ha (Nat.lt_succ_self _), ofParts?_of_name w.kind hlead hlast ha]

end Import

end Php

end PluginAudit
