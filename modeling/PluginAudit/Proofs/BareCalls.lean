import PluginAudit.Lines
import PluginAudit.Php.Tokens
import PluginAudit.Proofs.Casing
import PluginAudit.Proofs.Readings
import Mathlib

namespace PluginAudit.Lines

open Text Recognizer

/-- The same characters, but for the case of letters of ASCII. -/
def EqualIgnoringCase (cs ds : List Char) : Prop :=
  cs.map Char.toLower = ds.map Char.toLower

/-- Whether a character is a letter, a digit or the underscore. -/
def isNamePart (c : Char) : Bool :=
  c.isAlphanum || c == '_'

/-- A word of a line, with the characters before and after it. -/
@[ext]
structure BareCall where
  before : List Char
  word : List Char
  after : List Char

/-- The word is one of the names, in whatever case, and the line calls it by its bare name. -/
structure BareCall.IsIn (names : List String) (line : List Char) (c : BareCall) : Prop where
  split : line = c.before ++ (c.word ++ c.after)
  named : ∃ name ∈ names, EqualIgnoringCase name.toList c.word
  left : ∀ x ∈ c.before.getLast?, isNamePart x = false ∧ x ≠ '$' ∧ x ≠ '\\'
  member : ¬ "->".toList <:+ c.before ∧ ¬ "::".toList <:+ c.before
  declared : ¬ "function ".toList <:+ c.before.map Char.toLower
  right : ∀ x ∈ c.after.head?, isNamePart x = false
  called : ∃ blanks rest, c.after = blanks ++ '(' :: rest ∧ ∀ b ∈ blanks, isBlank b = true

theorem foldChar_ascii {c : Char} (hc : c.toNat < 128) : foldChar c = c.toLower :=
  ascii_forall (P := fun c => foldChar c = c.toLower) (by decide +kernel) hc

theorem sameFolded_ascii {c d : Char} (hc : c.toNat < 128) (hd : d.toNat < 128) :
    sameFolded c d = true ↔ c.toLower = d.toLower := by
  rw [sameFolded, foldChar_ascii hc, foldChar_ascii hd, Bool.or_eq_true, beq_iff_eq, beq_iff_eq]
  constructor
  · rintro (rfl | h)
    · rfl
    · exact h
  · exact .inr

theorem isNameChar_ascii {c : Char} (hc : c.toNat < 128) : isNameChar c = isNamePart c :=
  ascii_forall (P := fun c => isNameChar c = isNamePart c) (by decide +kernel) hc

theorem isNamePart_toLower {c : Char} (hc : c.toNat < 128) :
    isNamePart c.toLower = isNamePart c :=
  ascii_forall (P := fun c => isNamePart c.toLower = isNamePart c) (by decide +kernel) hc

theorem ascii_of_isNamePart {c : Char} (h : isNamePart c = true) : c.toNat < 128 := by
  simp only [isNamePart, Char.isAlphanum, Char.isAlpha, Char.isUpper, Char.isLower, Char.isDigit,
    ge_iff_le, Bool.or_eq_true, Bool.and_eq_true, decide_eq_true_eq, UInt32.le_iff_toNat_le,
    beq_iff_eq] at h
  obtain ((h | h) | h) | rfl := h
  · exact Nat.lt_of_le_of_lt h.2 (by decide)
  · exact Nat.lt_of_le_of_lt h.2 (by decide)
  · exact Nat.lt_of_le_of_lt h.2 (by decide)
  · decide

theorem mem_eraseReps {names : List String} {name : String} :
    name ∈ names.eraseReps ↔ name ∈ names := by
  have hloop (a : String) (rest seen : List String) :
      name ∈ List.eraseRepsBy.loop (· == ·) a rest seen ↔ name ∈ seen ∨ name = a ∨ name ∈ rest := by
    induction rest generalizing a seen with
    | nil => simp [List.eraseRepsBy.loop, or_comm]
    | cons b rest ih =>
      rw [List.eraseRepsBy.loop]
      split
      next heq =>
        obtain rfl : a = b := by simpa using heq
        rw [ih, List.mem_cons]
        tauto
      next =>
        rw [ih, List.mem_cons, List.mem_cons]
        tauto
  cases names with
  | nil => rfl
  | cons a rest => simpa [List.eraseReps, List.eraseRepsBy] using hloop a rest []

theorem mem_byLength {names : List String} {name : String} :
    name ∈ byLength names ↔ name ∈ names ∧ name ≠ "" := by
  simp [byLength, sortedSet, List.mem_mergeSort, mem_eraseReps]

/-- On characters of ASCII, words match if they are equal but for case. -/
theorem forall₂_sameFolded_iff {ws cs : List Char} (hws : ∀ w ∈ ws, w.toNat < 128)
    (hcs : ∀ c ∈ cs, c.toNat < 128) :
    List.Forall₂ (fun w c => sameFolded w c = true) ws cs ↔ EqualIgnoringCase ws cs := by
  rw [EqualIgnoringCase]
  induction ws generalizing cs with
  | nil =>
    rw [List.forall₂_nil_left_iff, List.map_nil, List.nil_eq, List.map_eq_nil_iff]
  | cons w ws ih =>
    cases cs with
    | nil => simp
    | cons c cs =>
      rw [List.forall_mem_cons] at hws hcs
      rw [List.forall₂_cons, List.map_cons, List.map_cons, List.cons.injEq,
        sameFolded_ascii hws.1 hcs.1, ih hws.2 hcs.2]

theorem equalIgnoringCase_iff_eq {ws cs : List Char} (hws : ∀ w ∈ ws, IsCaseless w)
    (hcs : ∀ c ∈ cs, c.toNat < 128) : EqualIgnoringCase ws cs ↔ cs = ws := by
  rw [EqualIgnoringCase]
  induction ws generalizing cs with
  | nil => rw [List.map_nil, List.nil_eq, List.map_eq_nil_iff]
  | cons w ws ih =>
    cases cs with
    | nil => simp
    | cons c cs =>
      rw [List.forall_mem_cons] at hws hcs
      have hw : w.toLower = c.toLower ↔ c = w := by
        have hlower : w.toLower = w := (toLower_ascii hws.1.1).resolve_right (by simp [hws.1.2])
        have hc := @lowerChar_eq_iff w c hws.1
        rw [lowerChar, if_pos hcs.1] at hc
        rw [hlower, eq_comm, hc]
      rw [List.map_cons, List.map_cons, List.cons.injEq, List.cons.injEq, hw, ih hws.2 hcs.2]

/-- What is compared with the first characters of a text matches as many of them. -/
theorem all_zip_iff (ws cs : List Char) :
    (ws.length ≤ cs.length ∧ ∀ e ∈ ws.zip cs, sameFolded e.1 e.2 = true) ↔
      ∃ ds, ds <+: cs ∧ List.Forall₂ (fun w c => sameFolded w c = true) ws ds := by
  induction ws generalizing cs with
  | nil => simp
  | cons w ws ih =>
    cases cs with
    | nil => simp
    | cons c cs =>
      rw [List.zip_cons_cons, List.forall_mem_cons, and_left_comm, List.length_cons,
        List.length_cons, Nat.add_le_add_iff_right, ih]
      constructor
      · rintro ⟨hc, ds, hds, h⟩
        exact ⟨c :: ds, List.cons_prefix_cons.2 ⟨rfl, hds⟩, .cons hc h⟩
      · rintro ⟨ds, hds, h⟩
        cases h with
        | @cons _ d _ ds hc h =>
          obtain ⟨rfl, hprefix⟩ := List.cons_prefix_cons.1 hds
          exact ⟨hc, ds, hprefix, h⟩

theorem endsIn_iff {mark : String} {before : List Char} : endsIn mark before.reverse = true ↔
    ∃ cs, cs <:+ before ∧ List.Forall₂ (fun w c => sameFolded w c = true) mark.toList cs := by
  rw [endsIn, Bool.and_eq_true, decide_eq_true_eq, List.all_eq_true, all_zip_iff]
  constructor
  · rintro ⟨ds, hds, h⟩
    refine ⟨ds.reverse, by simpa using List.reverse_suffix.2 hds, ?_⟩
    simpa using List.forall₂_reverse_iff.2 h
  · rintro ⟨cs, hcs, h⟩
    exact ⟨cs.reverse, List.reverse_prefix.2 hcs, List.forall₂_reverse_iff.2 h⟩

theorem endsIn_caseless {mark : String} {before : List Char}
    (hmark : ∀ w ∈ mark.toList, IsCaseless w) (hascii : ∀ c ∈ before, c.toNat < 128) :
    endsIn mark before.reverse = true ↔ mark.toList <:+ before := by
  have hmatch {cs : List Char} (hcs : cs <:+ before) :
      List.Forall₂ (fun w c => sameFolded w c = true) mark.toList cs ↔ cs = mark.toList := by
    have hascii' : ∀ c ∈ cs, c.toNat < 128 := fun c hc => hascii c (hcs.subset hc)
    rw [forall₂_sameFolded_iff (fun w hw => (hmark w hw).1) hascii',
      equalIgnoringCase_iff_eq hmark hascii']
  rw [endsIn_iff]
  constructor
  · rintro ⟨cs, hcs, h⟩
    rw [← (hmatch hcs).1 h]
    exact hcs
  · intro h
    exact ⟨_, h, (hmatch h).2 rfl⟩

theorem endsIn_lower {mark : String} {before : List Char}
    (hmark : ∀ w ∈ mark.toList, w.toNat < 128 ∧ w.toLower = w)
    (hascii : ∀ c ∈ before, c.toNat < 128) :
    endsIn mark before.reverse = true ↔ mark.toList <:+ before.map Char.toLower := by
  have hlower : mark.toList.map Char.toLower = mark.toList :=
    (List.map_congr_left fun w hw => (hmark w hw).2).trans (List.map_id _)
  have hmatch {cs : List Char} (hcs : cs <:+ before) :
      List.Forall₂ (fun w c => sameFolded w c = true) mark.toList cs ↔
        cs.map Char.toLower = mark.toList := by
    rw [forall₂_sameFolded_iff (fun w hw => (hmark w hw).1) fun c hc => hascii c (hcs.subset hc),
      EqualIgnoringCase, hlower, eq_comm]
  rw [endsIn_iff]
  constructor
  · rintro ⟨cs, hcs, h⟩
    rw [← (hmatch hcs).1 h]
    exact hcs.map _
  · intro h
    obtain ⟨cs, hcs, heq⟩ := List.suffix_map_iff.1 h
    exact ⟨cs, hcs, (hmatch hcs).2 heq.symm⟩

/-- No mark of a member, a variable, a qualified name or a declaration stands before the place. -/
theorem memberMarks_iff {before : List Char} (hascii : ∀ c ∈ before, c.toNat < 128) :
    (!memberMarks.any fun m => endsIn m before.reverse) = true ↔
      (∀ x ∈ before.getLast?, x ≠ '$' ∧ x ≠ '\\') ∧
      (¬ "->".toList <:+ before ∧ ¬ "::".toList <:+ before) ∧
      ¬ "function ".toList <:+ before.map Char.toLower := by
  have harrow : endsIn "->" before.reverse = true ↔ "->".toList <:+ before :=
    endsIn_caseless (by simp [IsCaseless]) hascii
  have hcolons : endsIn "::" before.reverse = true ↔ "::".toList <:+ before :=
    endsIn_caseless (by simp [IsCaseless]) hascii
  have hdollar : endsIn "$" before.reverse = true ↔ before.getLast? = some '$' :=
    (endsIn_caseless (by simp [IsCaseless]) hascii).trans
      List.singleton_suffix_iff_getLast?_eq_some
  have hbackslash : endsIn "\\" before.reverse = true ↔ before.getLast? = some '\\' :=
    (endsIn_caseless (by simp [IsCaseless]) hascii).trans
      List.singleton_suffix_iff_getLast?_eq_some
  have hfunction : endsIn "function " before.reverse = true ↔
      "function ".toList <:+ before.map Char.toLower :=
    endsIn_lower (by simp) hascii
  have hlast : (∀ x ∈ before.getLast?, x ≠ '$' ∧ x ≠ '\\') ↔
      ¬ before.getLast? = some '$' ∧ ¬ before.getLast? = some '\\' := by
    cases before.getLast? <;> simp
  have hbool (a b c d e : Bool) : (!(a || (b || (c || (d || (e || false)))))) = true ↔
      (¬ c = true ∧ ¬ d = true) ∧ (¬ a = true ∧ ¬ b = true) ∧ ¬ e = true := by
    decide +revert
  rw [hlast, ← harrow, ← hcolons, ← hdollar, ← hbackslash, ← hfunction]
  exact hbool _ _ _ _ _

theorem reads_wordOf {ws : List String} {p q : Place} {s : String} : Reads (wordOf ws) p s q ↔
    (∀ c ∈ p.before.head?, isNameChar c = false) ∧
    ∃ w ∈ ws, ∃ cs, p.Spells cs q ∧ s = String.ofList cs ∧
      List.Forall₂ (fun w c => sameFolded w c = true) w.toList cs ∧
      ∀ c ∈ q.after.head?, isNameChar c = false := by
  simp only [wordOf, reads_bind, reads_notAfter, reads_notBefore, reads_text_oneOf, reads_pure]
  constructor
  · rintro ⟨-, _, ⟨hleft, rfl⟩, _, m, ⟨w, hw, cs, hcs, rfl, hword⟩, -, _, ⟨hright, rfl⟩, rfl, rfl⟩
    exact ⟨hleft, w, hw, cs, hcs, rfl, hword, hright⟩
  · rintro ⟨hleft, w, hw, cs, hcs, rfl, hword, hright⟩
    exact ⟨(), p, ⟨hleft, rfl⟩, _, q, ⟨w, hw, cs, hcs, rfl, hword⟩, (), q, ⟨hright, rfl⟩, rfl, rfl⟩

theorem reads_callOf {ws : List String} {p q : Place} {s : String} : Reads (callOf ws) p s q ↔
    (!memberMarks.any fun m => endsIn m p.before) = true ∧
    ∃ m, Reads (wordOf ws) p s m ∧
      ∃ bs n, m.Spells bs n ∧ (∀ b ∈ bs, isBlank b = true) ∧
        ∃ ps, n.Spells ps q ∧ List.Forall₂ (fun w c => sameFolded w c = true) "(".toList ps := by
  simp only [callOf, blanks, reads_bind, reads_behind, reads_run, reads_word, reads_pure]
  constructor
  · rintro ⟨-, _, ⟨hmarks, rfl⟩, w, m, hw, -, n, ⟨bs, hbs, hblank⟩, -, q', ⟨ps, hps, hparen⟩, rfl,
      rfl⟩
    exact ⟨hmarks, m, hw, bs, n, hbs, hblank, ps, hps, hparen⟩
  · rintro ⟨hmarks, m, hw, bs, n, hbs, hblank, ps, hps, hparen⟩
    exact ⟨(), p, ⟨hmarks, rfl⟩, s, m, hw, (), n, ⟨bs, hbs, hblank⟩, (), q, ⟨ps, hps, hparen⟩, rfl,
      rfl⟩

theorem isNamePart_of_isIdentifier {name : String} (h : Php.Token.isIdentifier name = true) :
    name ≠ "" ∧ ∀ c ∈ name.toList, isNamePart c = true := by
  rw [Php.Token.isIdentifier] at h
  cases hchars : name.toList with
  | nil => simp [hchars] at h
  | cons c rest =>
    rw [hchars, Bool.and_eq_true, List.all_eq_true] at h
    obtain ⟨hfirst, hrest⟩ := h
    constructor
    · rintro rfl
      cases hchars
    · refine List.forall_mem_cons.2 ⟨?_, hrest⟩
      rw [isNamePart, Char.isAlphanum, Bool.or_right_comm, hfirst, Bool.true_or]

theorem forall₂_identifier_iff {name : String} {cs : List Char}
    (hname : Php.Token.isIdentifier name = true) (hcs : ∀ c ∈ cs, c.toNat < 128) :
    List.Forall₂ (fun w c => sameFolded w c = true) name.toList cs ↔
      EqualIgnoringCase name.toList cs := by
  have hparts := (isNamePart_of_isIdentifier hname).2
  exact forall₂_sameFolded_iff (fun w hw => ascii_of_isNamePart (hparts w hw)) hcs

theorem forall₂_paren_iff {cs : List Char} (hcs : ∀ c ∈ cs, c.toNat < 128) :
    List.Forall₂ (fun w c => sameFolded w c = true) "(".toList cs ↔ cs = ['('] := by
  rw [forall₂_sameFolded_iff (by simp) hcs]
  exact equalIgnoringCase_iff_eq (by simp [IsCaseless]) hcs

theorem not_isNameChar_iff {o : Option Char} (ho : ∀ c ∈ o, c.toNat < 128) :
    (∀ c ∈ o, isNameChar c = false) ↔ ∀ c ∈ o, isNamePart c = false := by
  refine forall₂_congr fun c hc => ?_
  rw [isNameChar_ascii (ho c hc)]

section Line

variable {names : List String} {line : List Char}

/-- What is read at a place of a line is a call that is there. -/
theorem isIn_of_reads {before after : List Char} {s : String} {q : Place}
    (hnames : ∀ name ∈ names, Php.Token.isIdentifier name = true)
    (hascii : ∀ c ∈ before ++ after, c.toNat < 128)
    (h : Reads (callOf (byLength names)) ⟨before.reverse, after⟩ s q) :
    ∃ c : BareCall, c.IsIn names (before ++ after) ∧ c.before = before ∧
      s = String.ofList c.word := by
  obtain ⟨hmarks, m, hreads, bs, n, hbs, hblank, ps, hps, hparens⟩ := reads_callOf.1 h
  obtain ⟨hstart, w, hw, cs, hcs, rfl, hmatch, hstop⟩ := reads_wordOf.1 hreads
  dsimp only at hmarks hstart
  obtain rfl : after = cs ++ m.after := hcs.after
  have hbefore : ∀ c ∈ before, c.toNat < 128 := fun c hc => hascii c (List.mem_append_left _ hc)
  have hword : ∀ c ∈ cs, c.toNat < 128 := fun c hc => hascii c (by simp [hc])
  have hrest : ∀ c ∈ m.after, c.toNat < 128 := fun c hc => hascii c (by simp [hc])
  have hparen : ∀ c ∈ ps, c.toNat < 128 := fun c hc => hrest c (by simp [hbs.after, hps.after, hc])
  obtain rfl := (forall₂_paren_iff hparen).1 hparens
  rw [memberMarks_iff hbefore] at hmarks
  rw [List.head?_reverse,
    not_isNameChar_iff fun c hc => hbefore c (List.mem_of_mem_getLast? hc)] at hstart
  rw [not_isNameChar_iff fun c hc => hrest c (List.mem_of_mem_head? hc)] at hstop
  have hname := (mem_byLength.1 hw).1
  refine ⟨⟨before, cs, m.after⟩, ?_, rfl, rfl⟩
  exact
    { split := rfl
      named := ⟨w, hname, (forall₂_identifier_iff (hnames w hname) hword).1 hmatch⟩
      left := fun x hx => ⟨hstart x hx, hmarks.1 x hx⟩
      member := hmarks.2.1
      declared := hmarks.2.2
      right := hstop
      called := ⟨bs, q.after, by rw [hbs.after, hps.after]; rfl, hblank⟩ }

/-- A call in a line is read at its place, whatever the other names are. -/
theorem BareCall.IsIn.reads {c : BareCall} (h : c.IsIn names line)
    (hnames : ∀ name ∈ names, Php.Token.isIdentifier name = true)
    (hascii : ∀ x ∈ line, x.toNat < 128) :
    ∃ q, Reads (callOf (byLength names)) ⟨c.before.reverse, c.word ++ c.after⟩
      (String.ofList c.word) q := by
  obtain ⟨before, word, rest⟩ := c
  obtain ⟨blanks, more, hcalled, hblank⟩ := h.called
  obtain ⟨name, hname, hsame⟩ := h.named
  obtain rfl : line = before ++ (word ++ rest) := h.split
  dsimp only at hcalled hsame ⊢
  have hbefore : ∀ x ∈ before, x.toNat < 128 := fun x hx => hascii x (List.mem_append_left _ hx)
  have hword : ∀ x ∈ word, x.toNat < 128 := fun x hx => hascii x (by simp [hx])
  have hrest : ∀ x ∈ rest, x.toNat < 128 := fun x hx => hascii x (by simp [hx])
  have hmarks := (memberMarks_iff hbefore).2
    ⟨fun x hx => (h.left x hx).2, h.member, h.declared⟩
  have hstart : ∀ x ∈ before.reverse.head?, isNameChar x = false := by
    rw [List.head?_reverse,
      not_isNameChar_iff fun x hx => hbefore x (List.mem_of_mem_getLast? hx)]
    exact fun x hx => (h.left x hx).1
  have hstop := (not_isNameChar_iff fun x hx => hrest x (List.mem_of_mem_head? hx)).2 h.right
  have hlisted := mem_byLength.2 ⟨hname, (isNamePart_of_isIdentifier (hnames name hname)).1⟩
  have hmatch := (forall₂_identifier_iff (hnames name hname) hword).2 hsame
  have hparen := (@forall₂_paren_iff ['('] (by simp)).2 rfl
  subst hcalled
  have hm := Place.spells_skip before.reverse word (blanks ++ '(' :: more)
  have hn := Place.spells_skip (word.reverse ++ before.reverse) blanks ('(' :: more)
  have hq := Place.spells_skip (blanks.reverse ++ (word.reverse ++ before.reverse)) ['('] more
  have hreads := reads_wordOf.2 ⟨hstart, name, hlisted, word, hm, rfl, hmatch, hstop⟩
  exact ⟨_, reads_callOf.2 ⟨hmarks, _, hreads, blanks, _, hn, hblank, _, hq, hparen⟩⟩

theorem BareCall.IsIn.isNamePart_word {c : BareCall} (h : c.IsIn names line)
    (hnames : ∀ name ∈ names, Php.Token.isIdentifier name = true)
    (hascii : ∀ x ∈ line, x.toNat < 128) : ∀ x ∈ c.word, isNamePart x = true := by
  obtain ⟨name, hname, hsame⟩ := h.named
  have hparts := (isNamePart_of_isIdentifier (hnames name hname)).2
  intro x hx
  have hx' : x.toNat < 128 := by
    apply hascii
    rw [h.split]
    simp [hx]
  have hmem : x.toLower ∈ name.toList.map Char.toLower := by
    rw [hsame]
    exact List.mem_map_of_mem hx
  obtain ⟨y, hy, heq⟩ := List.mem_map.1 hmem
  rw [← isNamePart_toLower hx', ← heq, isNamePart_toLower (ascii_of_isNamePart (hparts y hy))]
  exact hparts y hy

/-- At a place there is one call at most: its word goes on as long as a name can. -/
theorem BareCall.IsIn.unique {c d : BareCall} (h : c.IsIn names line) (h' : d.IsIn names line)
    (hnames : ∀ name ∈ names, Php.Token.isIdentifier name = true)
    (hascii : ∀ x ∈ line, x.toNat < 128) (hplace : c.before.length = d.before.length) : c = d := by
  have hword {e : BareCall} (he : e.IsIn names line) :
      (e.word ++ e.after).takeWhile isNamePart = e.word := by
    have hstop : e.after.takeWhile isNamePart = [] := by
      cases hafter : e.after with
      | nil => rfl
      | cons x rest => exact List.takeWhile_cons_of_neg (by simp [he.right x (by simp [hafter])])
    rw [List.takeWhile_append_of_pos (he.isNamePart_word hnames hascii), hstop, List.append_nil]
  obtain ⟨hbefore, hrest⟩ := List.append_inj (h.split.symm.trans h'.split) hplace
  have hsame : c.word = d.word := by
    rw [← hword h, ← hword h', hrest]
  rw [hsame] at hrest
  exact BareCall.ext hbefore hsame (List.append_cancel_left hrest)

theorem exists_of_read (hnames : ∀ name ∈ names, Php.Token.isIdentifier name = true)
    (hascii : ∀ x ∈ line, x.toNat < 128) {p : Place} {ds : List Char} {e : String × Place}
    (hspells : Place.Spells ⟨[], line⟩ ds p) (he : e ∈ (callOf (byLength names)).read p) :
    ∃ c : BareCall, c.IsIn names line ∧ c.before = ds ∧ e.1 = String.ofList c.word := by
  obtain ⟨before, after⟩ := p
  have hline : line = ds ++ after := hspells.after
  have hbefore : before = ds.reverse := hspells.before.trans (List.append_nil _)
  subst hline hbefore
  exact isIn_of_reads hnames hascii he

theorem search_callOf (hnames : ∀ name ∈ names, Php.Token.isIdentifier name = true) {text : String}
    (hascii : ∀ x ∈ text.toList, x.toNat < 128) {c : BareCall} (hc : c.IsIn names text.toList)
    (hfirst : ∀ d : BareCall, d.IsIn names text.toList → c.before.length ≤ d.before.length) :
    (callOf (byLength names)).search text = some (String.ofList c.word) := by
  have hspells : Place.Spells ⟨[], text.toList⟩ c.before ⟨c.before.reverse, c.word ++ c.after⟩ :=
    ⟨hc.split, (List.append_nil _).symm⟩
  obtain ⟨q, hq⟩ := hc.reads hnames hascii
  obtain ⟨word, end', hhead, -⟩ := exists_head hq
  obtain ⟨d, hd, hplace, hword⟩ :=
    exists_of_read hnames hascii hspells (List.mem_of_mem_head? hhead)
  obtain rfl := hd.unique hc hnames hascii (congrArg List.length hplace)
  have hsearch : searchFrom (callOf (byLength names)) [] text.toList = some (word, end') := by
    refine searchFrom_eq_some hspells hhead fun ds p hds hlength => ?_
    rw [read_eq_nil_iff]
    intro a q' hread
    obtain ⟨d', hd', rfl, -⟩ := exists_of_read hnames hascii hds hread
    exact Nat.not_le_of_lt hlength (hfirst d' hd')
  rw [search, hsearch, Option.map_some, hword]

theorem search_callOf_eq_none (hnames : ∀ name ∈ names, Php.Token.isIdentifier name = true)
    {text : String} (hascii : ∀ x ∈ text.toList, x.toNat < 128)
    (hnone : ∀ c : BareCall, ¬ c.IsIn names text.toList) :
    (callOf (byLength names)).search text = none := by
  have hsearch : searchFrom (callOf (byLength names)) [] text.toList = none := by
    refine searchFrom_eq_none_iff.2 fun ds p hds => ?_
    rw [read_eq_nil_iff]
    intro a q hread
    obtain ⟨d, hd, -⟩ := exists_of_read hnames hascii hds hread
    exact hnone d hd
  rw [search, hsearch, Option.map_none]

theorem exists_first_call (h : ∃ c : BareCall, c.IsIn names line) :
    ∃ c : BareCall, c.IsIn names line ∧
      ∀ d : BareCall, d.IsIn names line → c.before.length ≤ d.before.length := by
  classical
  have hplace : ∃ n, ∃ c : BareCall, c.IsIn names line ∧ c.before.length = n := by
    obtain ⟨c, hc⟩ := h
    exact ⟨_, c, hc, rfl⟩
  obtain ⟨c, hc, hlength⟩ := Nat.find_spec hplace
  refine ⟨c, hc, fun d hd => ?_⟩
  rw [hlength]
  exact Nat.find_min' hplace ⟨d, hd, rfl⟩

theorem lower_eq {name : String} {word : List Char} (hname : ∀ c ∈ name.toList, c.toNat < 128)
    (hword : ∀ c ∈ word, c.toNat < 128) (h : EqualIgnoringCase name.toList word) :
    lower name = lower (String.ofList word) := by
  rw [← String.toList_inj, toList_lower, toList_lower, String.toList_ofList,
    lowerParts_ascii hname, lowerParts_ascii hword]
  exact h

end Line

theorem mem_report {α : Type} {l : Line} {r : Recognizer α} {f : α → Violation} {x : Violation}
    (hx : x ∈ l.report r f) : ∃ a, x = f a := by
  rw [Line.report, Option.mem_toList, Option.map_eq_some_iff] at hx
  obtain ⟨a, -, rfl⟩ := hx
  exact ⟨a, rfl⟩

/-- The row for the first call of a forbidden function. -/
def callRow (l : Line) (word function : String) : Violation :=
  l.violation "forbidden_function" .critical s!"Call to forbidden function {word}()"
    [("function", .text function)]

/-- Apart from assignments and unsupported functions, calls by a bare name are reported. -/
theorem rows_of_line {p : Policy} (hne : byLength p.forbiddenFunctions ≠ [])
    (tokens : Option (List String)) (l : Line) :
    (functionViolations (.ofPolicy p tokens) l).filter (·.type == "forbidden_function") =
      l.report (callOf (byLength p.forbiddenFunctions)) fun w => callRow l w (lower w) := by
  have hforbidden : (Searches.ofPolicy p tokens).forbidden.isEmpty = false := by
    simpa [Searches.ofPolicy] using hne
  have hassignment : ¬ ("forbidden_function_assignment" == "forbidden_function") = true := by decide
  have hunsupported : ¬ ("unsupported_function" == "forbidden_function") = true := by decide
  rw [functionViolations, hforbidden, List.filter_append, if_neg Bool.false_ne_true,
    List.filter_append]
  refine (congrArg₂ (· ++ ·) (congrArg₂ (· ++ ·) (List.filter_eq_self.2 ?_)
    (List.filter_eq_nil_iff.2 ?_)) (List.filter_eq_nil_iff.2 ?_)).trans ?_
  · intro x hx
    obtain ⟨w, rfl⟩ := mem_report hx
    rfl
  · intro x hx
    obtain ⟨w, rfl⟩ := mem_report hx
    exact hassignment
  · intro x hx
    split at hx
    · cases hx
    · obtain ⟨w, rfl⟩ := mem_report hx
      exact hunsupported
  · rw [List.append_nil, List.append_nil]
    rfl

/-- In a line of ASCII, calls of forbidden functions by their bare names are found, and the first
one of them is reported, whatever other names are forbidden. -/
theorem forbidden_calls_found {p : Policy} (hne : p.forbiddenFunctions ≠ [])
    (hnames : ∀ name ∈ p.forbiddenFunctions, Php.Token.isIdentifier name = true)
    (tokens : Option (List String)) {l : Line} (hascii : ∀ x ∈ l.text.toList, x.toNat < 128) :
    let rows := (functionViolations (.ofPolicy p tokens) l).filter (·.type == "forbidden_function")
    (rows ≠ [] ↔ ∃ c : BareCall, c.IsIn p.forbiddenFunctions l.text.toList) ∧
    (∀ c : BareCall, c.IsIn p.forbiddenFunctions l.text.toList →
      (∀ d : BareCall, d.IsIn p.forbiddenFunctions l.text.toList →
        c.before.length ≤ d.before.length) →
      ∀ name ∈ p.forbiddenFunctions, EqualIgnoringCase name.toList c.word →
        rows = [callRow l (String.ofList c.word) (lower name)]) ∧
    (∀ c d : BareCall, c.IsIn p.forbiddenFunctions l.text.toList →
      d.IsIn p.forbiddenFunctions l.text.toList → c.before.length = d.before.length → c = d) := by
  intro rows
  obtain ⟨first, hfirst⟩ := List.exists_mem_of_ne_nil _ hne
  have hne' : byLength p.forbiddenFunctions ≠ [] := by
    intro hnil
    have := mem_byLength.2 ⟨hfirst, (isNamePart_of_isIdentifier (hnames first hfirst)).1⟩
    rw [hnil] at this
    cases this
  have hrows : rows = ((callOf (byLength p.forbiddenFunctions)).search l.text).toList.map
      fun w => callRow l w (lower w) := by
    rw [← Option.toList_map]
    exact rows_of_line hne' tokens l
  have hreported (c : BareCall) (hc : c.IsIn p.forbiddenFunctions l.text.toList)
      (hleast : ∀ d : BareCall, d.IsIn p.forbiddenFunctions l.text.toList →
        c.before.length ≤ d.before.length) :
      rows = [callRow l (String.ofList c.word) (lower (String.ofList c.word))] := by
    rw [hrows, search_callOf hnames hascii hc hleast]
    rfl
  refine ⟨⟨?_, ?_⟩, ?_, ?_⟩
  · intro hsome
    by_contra hnone
    rw [hrows, search_callOf_eq_none hnames hascii fun c hc => hnone ⟨c, hc⟩] at hsome
    exact hsome rfl
  · intro hcalls
    obtain ⟨c, hc, hleast⟩ := exists_first_call hcalls
    rw [hreported c hc hleast]
    exact List.cons_ne_nil _ _
  · intro c hc hleast name hname hsame
    have hword : ∀ x ∈ c.word, x.toNat < 128 := by
      intro x hx
      exact ascii_of_isNamePart (hc.isNamePart_word hnames hascii x hx)
    have hchars : ∀ x ∈ name.toList, x.toNat < 128 := by
      intro x hx
      exact ascii_of_isNamePart ((isNamePart_of_isIdentifier (hnames name hname)).2 x hx)
    rw [lower_eq hchars hword hsame]
    exact hreported c hc hleast
  · intro c d hc hd hplace
    exact hc.unique hd hnames hascii hplace

/-- A call of `exec_all`, where `exec` is forbidden too. -/
theorem longer_name_reported :
    let p : Policy := { (default : Policy) with forbiddenFunctions := ["exec", "exec_all"] }
    let l : Line := ⟨"a.php", 1, "Exec_All (2); $db->exec(3);"⟩
    (functionViolations (.ofPolicy p none) l).filter (·.type == "forbidden_function") =
      [callRow l "Exec_All" "exec_all"] := by
  intro p l
  have hnames : ∀ name ∈ p.forbiddenFunctions, Php.Token.isIdentifier name = true := by decide
  have hascii : ∀ x ∈ l.text.toList, x.toNat < 128 := by simp [l]
  have hblank : isBlank ' ' = true := by decide +kernel
  have hsame : EqualIgnoringCase "exec_all".toList "Exec_All".toList := by
    rw [EqualIgnoringCase]
    decide
  have hlower : lower "exec_all" = "exec_all" := by cbv
  have hcall : BareCall.IsIn p.forbiddenFunctions l.text.toList
      ⟨[], "Exec_All".toList, " (2); $db->exec(3);".toList⟩ :=
    { split := by decide
      named := ⟨"exec_all", by decide, hsame⟩
      left := by simp
      member := by simp
      declared := by simp
      right := by simp [isNamePart]
      called := ⟨[' '], "2); $db->exec(3);".toList, by decide, by simpa using hblank⟩ }
  have hreported := (forbidden_calls_found (List.cons_ne_nil _ _) hnames none hascii).2.1 _ hcall
    (fun d _ => Nat.zero_le _) "exec_all" (by decide) hsame
  rw [hlower] at hreported
  exact hreported

end PluginAudit.Lines
