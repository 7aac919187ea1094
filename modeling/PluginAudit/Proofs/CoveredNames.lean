import PluginAudit.Proofs.BareCalls
import PluginAudit.Proofs.Separators
import Mathlib

namespace PluginAudit.Lines

open Text Recognizer

/-- Identifiers with single backslashes between them. -/
def IsQualified (name : String) : Prop :=
  ∃ segments : List String, segments ≠ [] ∧
    (∀ s ∈ segments, Php.Token.isIdentifier s = true) ∧ name = join "\\" segments

/-- The name is the namespace or goes on behind it with a backslash, letters in whatever case. -/
def LiesWithin (name ns : List Char) : Prop :=
  ∃ front rest, name = front ++ rest ∧ EqualIgnoringCase ns front ∧
    (rest = [] ∨ rest.head? = some '\\')

/-- The line is reported for the namespace, as one that it names in a string or refers to. -/
def IsMentioned (s : Searches) (l : Line) (ns : String) : Prop :=
  ∃ v ∈ namespaceViolations s l,
    (v.type = "forbidden_namespace_string" ∨ v.type = "forbidden_namespace_reference") ∧
    v.data = [("namespace", .text ns)]

/-- The characters are those of the parts in whatever case, with one or two backslashes between
them. -/
def SpellsParts : List String → List Char → Prop
  | [], cs => cs = []
  | [part], cs => List.Forall₂ (fun w c => sameFolded w c = true) part.toList cs
  | part :: next :: rest, cs => ∃ front n back, cs = front ++ (List.replicate n '\\' ++ back) ∧
      List.Forall₂ (fun w c => sameFolded w c = true) part.toList front ∧
      1 ≤ n ∧ n ≤ 2 ∧ SpellsParts (next :: rest) back

/-- A word of a line that spells the namespace, backslashes in front of it included, where no name
goes on to the left or right of it. -/
structure IsNamedBy (ns : String) (line before word after : List Char) : Prop where
  split : line = before ++ (word ++ after)
  spelled : ∃ n cs, word = List.replicate n '\\' ++ cs ∧ n ≤ 2 ∧ SpellsParts (namespaceParts ns) cs
  left : ∀ c ∈ before.getLast?, isNameCharOrBackslash c = false
  right : ∀ c ∈ after.head?, isNameChar c = false

theorem reads_partsInOrder {parts : List String} {p q : Place} {x : Unit} :
    Reads (partsInOrder parts) p x q ↔ ∃ cs, p.Spells cs q ∧ SpellsParts parts cs := by
  induction parts using partsInOrder.induct generalizing p with
  | case1 =>
    simp only [partsInOrder, reads_pure, SpellsParts]
    constructor
    · rintro ⟨-, rfl⟩
      exact ⟨[], Place.spells_nil.2 rfl, rfl⟩
    · rintro ⟨cs, h, rfl⟩
      exact ⟨trivial, (Place.spells_nil.1 h).symm⟩
  | case2 part => exact reads_word
  | case3 part rest hrest ih =>
    obtain ⟨next, rest, rfl⟩ := List.exists_cons_of_ne_nil hrest
    simp only [partsInOrder, reads_bind, reads_word, reads_times, ih, SpellsParts]
    constructor
    · rintro ⟨-, m, ⟨front, hfront, hpart⟩, -, m', ⟨n, hleast, hmost, hmarks⟩, back, hback, hnext⟩
      refine ⟨_, hfront.trans (hmarks.trans hback), ?_⟩
      exact ⟨front, n, back, rfl, hpart, hleast, hmost, hnext⟩
    · rintro ⟨cs, hspells, front, n, back, rfl, hpart, hleast, hmost, hnext⟩
      obtain ⟨m, hfront, hspells⟩ := hspells.split
      obtain ⟨m', hmarks, hback⟩ := hspells.split
      exact ⟨(), m, ⟨front, hfront, hpart⟩, (), m', ⟨n, hleast, hmost, hmarks⟩, back, hback, hnext⟩

theorem reads_rooted {ns : String} {p m q : Place} {x y : Unit}
    (hroot : Reads (times '\\' 0 2) p x m) (hname : Reads (namespaceName ns) m y q) :
    ∃ word, p.Spells word q ∧
      ∃ n cs, word = List.replicate n '\\' ++ cs ∧ n ≤ 2 ∧ SpellsParts (namespaceParts ns) cs := by
  obtain ⟨n, -, hn, hmarks⟩ := reads_times.1 hroot
  obtain ⟨cs, hcs, hparts⟩ := reads_partsInOrder.1 hname
  exact ⟨_, hmarks.trans hcs, n, cs, rfl, hn, hparts⟩

theorem not_isNameChar_backslash : isNameChar '\\' = false := by
  decide +kernel

/-- No name goes on where a backslash stands. -/
theorem right_of_times {least most : Nat} {p q : Place} {x : Unit} (hleast : 1 ≤ least)
    (h : Reads (times '\\' least most) p x q) : ∀ c ∈ p.after.head?, isNameChar c = false := by
  obtain ⟨n, hn, -, hmarks⟩ := reads_times.1 h
  obtain ⟨n, rfl⟩ : ∃ k, n = k + 1 := ⟨n - 1, by omega⟩
  intro c hc
  rw [hmarks.after, List.replicate_succ] at hc
  obtain rfl : '\\' = c := Option.some.inj hc
  exact not_isNameChar_backslash

theorem isNamedBy_of_referenceTo {ns : String} {before after : List Char} {x : Unit} {q : Place}
    (h : Reads (referenceTo ns) ⟨before.reverse, after⟩ x q) :
    ∃ word rest, IsNamedBy ns (before ++ after) before word rest := by
  simp only [referenceTo, reads_bind, reads_notAfter, reads_orElse, reads_notBefore] at h
  obtain ⟨-, _, ⟨hleft, rfl⟩, _, m, hroot, _, m', hname, hend⟩ := h
  obtain ⟨word, hword, hspelled⟩ := reads_rooted hroot hname
  refine ⟨word, m'.after, congrArg (before ++ ·) hword.after, hspelled, ?_, ?_⟩
  · rwa [← List.head?_reverse]
  · obtain hmarks | ⟨hstop, -⟩ := hend
    · exact right_of_times (Nat.le_refl 1) hmarks
    · exact hstop

theorem IsNamedBy.reads {ns : String} {line before word after : List Char}
    (h : IsNamedBy ns line before word after) :
    ∃ q, Reads (referenceTo ns) ⟨before.reverse, word ++ after⟩ () q := by
  obtain ⟨n, cs, rfl, hn, hparts⟩ := h.spelled
  have hspells := Place.spells_skip before.reverse (List.replicate n '\\' ++ cs) after
  obtain ⟨m, hmarks, hcs⟩ := hspells.split
  have hroot : Reads (times '\\' 0 2) ⟨before.reverse, _⟩ () m :=
    reads_times.2 ⟨n, Nat.zero_le n, hn, hmarks⟩
  have hname := reads_partsInOrder (x := ()).2 ⟨cs, hcs, hparts⟩
  simp only [referenceTo, reads_bind, reads_notAfter, reads_orElse, reads_notBefore]
  refine ⟨_, (), _, ⟨?_, rfl⟩, (), m, hroot, (), _, hname, .inr ⟨h.right, rfl⟩⟩
  rw [List.head?_reverse]
  exact h.left

theorem occurs_referenceTo {ns text : String} : (referenceTo ns).occurs text = true ↔
    ∃ before word after, IsNamedBy ns text.toList before word after := by
  rw [occurs_iff]
  constructor
  · rintro ⟨before, after, x, q, hsplit, hread⟩
    rw [hsplit]
    exact ⟨before, isNamedBy_of_referenceTo hread⟩
  · rintro ⟨before, word, after, h⟩
    obtain ⟨q, hq⟩ := h.reads
    exact ⟨before, word ++ after, (), q, h.split, hq⟩

theorem isQuote_iff {c : Char} : isQuote c = true ↔ c = '\'' ∨ c = '"' := by
  simp [isQuote]

theorem not_isName_of_isQuote {c : Char} (h : isQuote c = true) :
    isNameChar c = false ∧ isNameCharOrBackslash c = false := by
  obtain rfl | rfl := isQuote_iff.1 h
  · decide +kernel
  · decide +kernel

/-- A quoted namespace is a reference to it, the quotes taken for the text around it. -/
theorem occurs_referenceTo_of_stringNaming {ns text : String}
    (h : (stringNaming ns).occurs text = true) : (referenceTo ns).occurs text = true := by
  obtain ⟨before, after, x, q, hsplit, hread⟩ := occurs_iff.1 h
  simp only [stringNaming, reads_bind, reads_one, reads_optional] at hread
  obtain ⟨-, p, ⟨quote, hquote, hopen⟩, _, m, hroot, _, m', hname, _, e, htail, close, hclose,
    hlast⟩ := hread
  obtain ⟨word, hword, hspelled⟩ := reads_rooted hroot hname
  refine occurs_referenceTo.2 ⟨before ++ [quote], word, m'.after, ?_⟩
  exact
    { split := by
        rw [hsplit, show after = _ from hopen.after, hword.after, List.append_assoc]
      spelled := hspelled
      left := by
        intro c hc
        rw [List.getLast?_concat] at hc
        obtain rfl : quote = c := Option.some.inj hc
        exact (not_isName_of_isQuote hquote).2
      right := by
        obtain ⟨_, e', hmarks, -⟩ | rfl := htail
        · exact right_of_times (Nat.le_refl 1) hmarks
        · intro c hc
          rw [hlast.after] at hc
          obtain rfl : close = c := Option.some.inj hc
          exact (not_isName_of_isQuote hclose).1 }

/-- A word of run characters starts where the only run of a text does, if none stands before it. -/
theorem run_starts {test : Char → Bool} {before run after front word rest : List Char}
    (hbefore : ∀ c ∈ before, test c = false) (hrun : ∀ c ∈ run, test c = true)
    (hafter : ∀ c ∈ after, test c = false) (hleft : ∀ c ∈ front.getLast?, test c = false)
    (hword : ∀ c ∈ word, test c = true) (hne : word ≠ [])
    (hsplit : before ++ (run ++ after) = front ++ (word ++ rest)) :
    front = before ∧ ∃ more, run = word ++ more ∧ rest = more ++ after := by
  have hapart {c : Char} (hyes : test c = true) (hno : test c = false) : False :=
    Bool.false_ne_true (hno.symm.trans hyes)
  obtain ⟨w, word, rfl⟩ := List.exists_cons_of_ne_nil hne
  have hw := hword w List.mem_cons_self
  have hfront : front = before := by
    obtain ⟨x, rfl, hx⟩ | ⟨x, rfl, hx⟩ := List.append_eq_append_iff.1 hsplit
    · obtain rfl | ⟨x, c, rfl⟩ := x.eq_nil_or_concat'
      · exact List.append_nil before
      · have hc : test c = false := hleft c (by simp [← List.append_assoc])
        exfalso
        obtain ⟨y, -, hy⟩ | ⟨y, hy, -⟩ := List.append_eq_append_iff.1 hx
        · exact hapart hw (hafter w (by simp [hy]))
        · exact hapart (hrun c (by simp [hy])) hc
    · cases x with
      | nil => rw [List.append_nil]
      | cons c x =>
        obtain ⟨rfl, -⟩ := List.cons.inj hx
        exact (hapart hw (hbefore w (by simp))).elim
  subst hfront
  refine ⟨rfl, ?_⟩
  obtain ⟨x, hx, hrest⟩ | ⟨x, hx, hrest⟩ :=
    List.append_eq_append_iff.1 (List.append_cancel_left hsplit)
  · cases x with
    | nil => exact ⟨[], by simpa using hx.symm, by simpa using hrest.symm⟩
    | cons c x =>
      have hc := hword c (by rw [hx]; simp)
      exact (hapart hc (hafter c (by simp [hrest]))).elim
  · exact ⟨x, hx, hrest⟩

theorem isNameChar_eq_of_sameFolded {c d : Char} (h : sameFolded c d = true) :
    isNameChar d = isNameChar c := by
  rw [sameFolded, Bool.or_eq_true, beq_iff_eq, beq_iff_eq] at h
  obtain rfl | h := h
  · rfl
  · rw [isNameChar, isNameChar, h]

/-- What spells an identifier has characters, and all of them can stand in a name. -/
theorem spelled_identifier {part : String} {cs : List Char}
    (hpart : Php.Token.isIdentifier part = true)
    (h : List.Forall₂ (fun w c => sameFolded w c = true) part.toList cs) :
    cs ≠ [] ∧ ∀ c ∈ cs, isNameChar c = true := by
  obtain ⟨hne, hname⟩ := isNamePart_of_isIdentifier hpart
  constructor
  · rintro rfl
    exact hne (String.toList_eq_nil_iff.1 (List.forall₂_nil_right_iff.1 h))
  · generalize part.toList = ws at h hname
    induction h with
    | nil => exact List.forall_mem_nil _
    | @cons w c ws cs hsame _ ih =>
      rw [List.forall_mem_cons] at hname
      refine List.forall_mem_cons.2 ⟨?_, ih hname.2⟩
      rw [isNameChar_eq_of_sameFolded hsame, isNameChar_ascii (ascii_of_isNamePart hname.1)]
      exact hname.1

theorem toList_join_cons_cons (part next : String) (rest : List String) :
    (join "\\" (part :: next :: rest)).toList =
      part.toList ++ '\\' :: (join "\\" (next :: rest)).toList := by
  simp [join, String.toList_intercalate]

theorem toList_join_singleton (part : String) : (join "\\" [part]).toList = part.toList := by
  simp [join]

section Parts

variable {parts : List String} {cs : List Char}

theorem SpellsParts.opens (h : SpellsParts parts cs) (hne : parts ≠ [])
    (hparts : ∀ part ∈ parts, Php.Token.isIdentifier part = true) :
    ∃ c rest, cs = c :: rest ∧ isNameChar c = true := by
  obtain ⟨part, rest, rfl⟩ := List.exists_cons_of_ne_nil hne
  have hfirst : ∃ front more, cs = front ++ more ∧
      List.Forall₂ (fun w c => sameFolded w c = true) part.toList front := by
    cases rest with
    | nil => exact ⟨cs, [], (List.append_nil cs).symm, h⟩
    | cons next rest =>
      obtain ⟨front, n, back, rfl, hpart, -⟩ := h
      exact ⟨front, _, rfl, hpart⟩
  obtain ⟨front, more, rfl, hpart⟩ := hfirst
  obtain ⟨hfront, hname⟩ := spelled_identifier (hparts part List.mem_cons_self) hpart
  obtain ⟨c, front, rfl⟩ := List.exists_cons_of_ne_nil hfront
  exact ⟨c, front ++ more, rfl, hname c List.mem_cons_self⟩

theorem isNameCharOrBackslash_of_isNameChar {c : Char} (h : isNameChar c = true) :
    isNameCharOrBackslash c = true := by
  rw [isNameCharOrBackslash, h, Bool.true_or]

theorem SpellsParts.isName (h : SpellsParts parts cs)
    (hparts : ∀ part ∈ parts, Php.Token.isIdentifier part = true) :
    ∀ c ∈ cs, isNameCharOrBackslash c = true := by
  induction parts generalizing cs with
  | nil =>
    obtain rfl : cs = [] := h
    exact List.forall_mem_nil _
  | cons part rest ih =>
    rw [List.forall_mem_cons] at hparts
    cases rest with
    | nil =>
      intro c hc
      exact isNameCharOrBackslash_of_isNameChar ((spelled_identifier hparts.1 h).2 c hc)
    | cons next rest =>
      obtain ⟨front, n, back, rfl, hpart, -, -, hback⟩ := h
      intro c hc
      rw [List.mem_append, List.mem_append] at hc
      obtain hc | hc | hc := hc
      · exact isNameCharOrBackslash_of_isNameChar ((spelled_identifier hparts.1 hpart).2 c hc)
      · rw [List.eq_of_mem_replicate hc]
        decide +kernel
      · exact ih hback hparts.2 c hc

/-- Where no backslash is doubled, the parts are spelled as they stand in the name. -/
theorem SpellsParts.equal (h : SpellsParts parts cs)
    (hparts : ∀ part ∈ parts, Php.Token.isIdentifier part = true)
    (hascii : ∀ c ∈ cs, c.toNat < 128) (hsingle : ¬ ['\\', '\\'] <:+: cs) :
    EqualIgnoringCase (join "\\" parts).toList cs := by
  induction parts generalizing cs with
  | nil =>
    obtain rfl : cs = [] := h
    rfl
  | cons part rest ih =>
    rw [List.forall_mem_cons] at hparts
    cases rest with
    | nil =>
      rw [toList_join_singleton]
      exact (forall₂_identifier_iff hparts.1 hascii).1 h
    | cons next rest =>
      obtain ⟨front, n, back, rfl, hpart, hleast, hmost, hback⟩ := h
      simp only [List.forall_mem_append] at hascii
      obtain rfl : n = 1 := by
        by_contra hn
        obtain rfl : n = 2 := by omega
        exact hsingle ⟨front, back, by simp⟩
      have hlater := ih hback hparts.2 hascii.2.2 fun hdoubled =>
        hsingle (hdoubled.trans ⟨front ++ ['\\'], [], by simp⟩)
      have hfirst := (forall₂_identifier_iff hparts.1 hascii.1).1 hpart
      rw [EqualIgnoringCase] at hlater hfirst ⊢
      rw [toList_join_cons_cons, List.map_append, List.map_cons, hfirst, hlater]
      simp

theorem eq_backslash_of_toLower {c : Char} (hc : c.toNat < 128) (h : c.toLower = '\\') :
    c = '\\' :=
  (lowerChar_eq_iff (by simp [IsCaseless])).1 (by rw [lowerChar, if_pos hc, h])

theorem spellsParts_of_equal (hparts : ∀ part ∈ parts, Php.Token.isIdentifier part = true)
    (hascii : ∀ c ∈ cs, c.toNat < 128) (h : EqualIgnoringCase (join "\\" parts).toList cs) :
    SpellsParts parts cs := by
  induction parts generalizing cs with
  | nil => exact List.map_eq_nil_iff.1 h.symm
  | cons part rest ih =>
    rw [List.forall_mem_cons] at hparts
    cases rest with
    | nil =>
      rw [toList_join_singleton] at h
      exact (forall₂_identifier_iff hparts.1 hascii).2 h
    | cons next rest =>
      rw [toList_join_cons_cons, EqualIgnoringCase, List.map_append, List.map_cons, eq_comm,
        List.map_eq_append_iff] at h
      obtain ⟨front, tail, rfl, hfront, htail⟩ := h
      obtain ⟨b, back, rfl, hb, hback⟩ := List.map_eq_cons_iff.1 htail
      simp only [List.forall_mem_append, List.forall_mem_cons] at hascii
      obtain rfl := eq_backslash_of_toLower hascii.2.1 hb
      refine ⟨front, 1, back, rfl, ?_, Nat.le_refl 1, Nat.le_succ 1, ?_⟩
      · exact (forall₂_identifier_iff hparts.1 hascii.1).2 hfront.symm
      · exact ih hparts.2 hascii.2.2 hback.symm

theorem ascii_join (hparts : ∀ part ∈ parts, Php.Token.isIdentifier part = true) :
    ∀ c ∈ (join "\\" parts).toList, c.toNat < 128 := by
  have hascii {part : String} (hpart : Php.Token.isIdentifier part = true) :
      ∀ c ∈ part.toList, c.toNat < 128 := fun c hc =>
    ascii_of_isNamePart ((isNamePart_of_isIdentifier hpart).2 c hc)
  induction parts with
  | nil => exact List.forall_mem_nil _
  | cons part rest ih =>
    rw [List.forall_mem_cons] at hparts
    cases rest with
    | nil =>
      rw [toList_join_singleton]
      exact hascii hparts.1
    | cons next rest =>
      rw [toList_join_cons_cons, List.forall_mem_append, List.forall_mem_cons]
      exact ⟨hascii hparts.1, by decide, ih hparts.2⟩

theorem spellsParts_join (hparts : ∀ part ∈ parts, Php.Token.isIdentifier part = true) :
    SpellsParts parts (join "\\" parts).toList :=
  spellsParts_of_equal hparts (ascii_join hparts) rfl

theorem not_mem_backslash {part : String} (hpart : Php.Token.isIdentifier part = true) :
    '\\' ∉ part.toList := by
  intro h
  cases (isNamePart_of_isIdentifier hpart).2 _ h

theorem not_doubled_join (hparts : ∀ part ∈ parts, Php.Token.isIdentifier part = true) :
    ¬ ['\\', '\\'] <:+: (join "\\" parts).toList := by
  induction parts with
  | nil => simp [join]
  | cons part rest ih =>
    rw [List.forall_mem_cons] at hparts
    cases rest with
    | nil =>
      intro h
      rw [toList_join_singleton] at h
      exact not_mem_backslash hparts.1 (h.subset List.mem_cons_self)
    | cons next rest =>
      intro h
      rw [toList_join_cons_cons] at h
      have hlater := infix_append_of_head_not_mem (not_mem_backslash hparts.1) h
      obtain hstarts | hinside := List.infix_cons_iff.1 hlater
      · obtain ⟨c, more, heq, hc⟩ :=
          (spellsParts_join hparts.2).opens (List.cons_ne_nil _ _) hparts.2
        rw [heq, List.cons_prefix_cons, List.cons_prefix_cons] at hstarts
        rw [← hstarts.2.1, not_isNameChar_backslash] at hc
        cases hc
      · exact ih hparts.2 hinside

theorem last_join (hparts : ∀ part ∈ parts, Php.Token.isIdentifier part = true) :
    ∀ c ∈ (join "\\" parts).toList.getLast?, (c == '\\') = false := by
  induction parts with
  | nil => simp [join]
  | cons part rest ih =>
    rw [List.forall_mem_cons] at hparts
    intro c hc
    cases rest with
    | nil =>
      rw [toList_join_singleton] at hc
      rw [beq_eq_false_iff_ne]
      rintro rfl
      exact not_mem_backslash hparts.1 (List.mem_of_mem_getLast? hc)
    | cons next rest =>
      obtain ⟨d, more, heq, -⟩ :=
        (spellsParts_join hparts.2).opens (List.cons_ne_nil _ _) hparts.2
      apply ih hparts.2
      rw [toList_join_cons_cons, List.getLast?_append_of_ne_nil _ (List.cons_ne_nil _ _), heq,
        List.getLast?_cons_cons] at hc
      rwa [heq]

theorem namespaceParts_join (hne : parts ≠ [])
    (hparts : ∀ part ∈ parts, Php.Token.isIdentifier part = true) :
    namespaceParts (join "\\" parts) = parts := by
  have hsplit : splitBy (· == '\\') (String.ofList (['\\'].intercalate (parts.map String.toList))) =
      (parts.map String.toList).map String.ofList := by
    refine splitBy_intercalate (List.forall_mem_map.2 fun part hpart => ?_) (by simpa)
    exact not_mem_backslash (hparts part hpart)
  have hchars : String.ofList (['\\'].intercalate (parts.map String.toList)) = join "\\" parts := by
    rw [← String.toList_inj, String.toList_ofList, join, String.toList_intercalate]
    rfl
  rw [hchars] at hsplit
  rw [namespaceParts, words, show isBackslash = (· == '\\') from rfl, hsplit, List.map_map,
    List.filter_eq_self.2]
  · simp
  · intro s hs
    obtain ⟨part, hpart, rfl⟩ := List.mem_map.1 hs
    simpa using (isNamePart_of_isIdentifier (hparts part hpart)).1

end Parts

theorem backslashes_of_root {root : String} (hroot : root = "" ∨ root = "\\") :
    ∀ c ∈ root.toList, (c == '\\') = true := by
  obtain rfl | rfl := hroot
  · exact List.forall_mem_nil _
  · simp

theorem head_not_backslash {cs : List Char} (h : ∃ c rest, cs = c :: rest ∧ isNameChar c = true) :
    ∀ c ∈ cs.head?, (c == '\\') = false := by
  obtain ⟨c, rest, rfl, hname⟩ := h
  intro d hd
  obtain rfl : c = d := Option.some.inj hd
  rw [beq_eq_false_iff_ne]
  rintro rfl
  exact Bool.false_ne_true (not_isNameChar_backslash.symm.trans hname)

/-- A name has backslashes neither in front nor behind it, so that they are told apart from it. -/
theorem trimBackslashes_rooted {root : String} (hroot : root = "" ∨ root = "\\")
    {segments : List String} (hne : segments ≠ [])
    (hsegments : ∀ s ∈ segments, Php.Token.isIdentifier s = true) :
    trimBackslashes (root ++ join "\\" segments) = join "\\" segments := by
  have hbefore := backslashes_of_root hroot
  have hhead := head_not_backslash ((spellsParts_join hsegments).opens hne hsegments)
  have h := @trim_between _ _ _ [] hbefore (List.forall_mem_nil _) hhead (last_join hsegments)
  rwa [List.append_nil, ← String.toList_append, String.ofList_toList, String.ofList_toList] at h

theorem toList_lower_ascii {s : String} (hs : ∀ c ∈ s.toList, c.toNat < 128) :
    (lower s).toList = s.toList.map Char.toLower := by
  rw [toList_lower, lowerParts_ascii hs]

theorem liesIn_iff {name ns : String} (hname : ∀ c ∈ name.toList, c.toNat < 128)
    (hns : ∀ c ∈ ns.toList, c.toNat < 128) :
    Policy.liesIn (lower name) (lower ns) = true ↔ LiesWithin name.toList ns.toList := by
  rw [Policy.liesIn, Bool.or_eq_true, beq_iff_eq, startsWith, List.isPrefixOf_iff_prefix,
    String.toList_append, ← String.toList_inj, toList_lower_ascii hname, toList_lower_ascii hns]
  constructor
  · rintro (heq | ⟨tail, htail⟩)
    · exact ⟨name.toList, [], (List.append_nil _).symm, heq.symm, .inl rfl⟩
    · rw [List.append_assoc, eq_comm, List.map_eq_append_iff] at htail
      obtain ⟨front, rest, hsplit, hfront, hrest⟩ := htail
      obtain ⟨b, more, rfl, hb, -⟩ := List.map_eq_cons_iff.1 hrest
      refine ⟨front, b :: more, hsplit, hfront.symm, .inr ?_⟩
      rw [eq_backslash_of_toLower (hname b (by simp [hsplit])) hb]
      rfl
  · rintro ⟨front, rest, hsplit, hfront, rfl | hhead⟩
    · left
      rw [hsplit, List.append_nil]
      exact hfront.symm
    · right
      obtain ⟨more, rfl⟩ := List.head?_eq_some_iff.1 hhead
      refine ⟨more.map Char.toLower, ?_⟩
      rw [hsplit, List.map_append, hfront]
      simp

theorem isForbiddenNamespace_iff {p : Policy} {ns name root : String}
    (hp : p.forbiddenNamespaces = [ns]) (hns : IsQualified ns) (hname : IsQualified name)
    (hroot : root = "" ∨ root = "\\") :
    p.isForbiddenNamespace (root ++ name) = true ↔ LiesWithin name.toList ns.toList := by
  obtain ⟨parts, -, hparts, rfl⟩ := hns
  obtain ⟨segments, hne, hsegments, rfl⟩ := hname
  have hempty : ¬ (lower (join "\\" segments) == "") = true := by
    rw [beq_iff_eq]
    intro h
    obtain ⟨c, rest, heq, -⟩ := (spellsParts_join hsegments).opens hne hsegments
    rw [eq_empty_of_lower h] at heq
    cases heq
  rw [← liesIn_iff (ascii_join hsegments) (ascii_join hparts), Policy.isForbiddenNamespace,
    Policy.forbiddenNamespaceFor?, trimBackslashes_rooted hroot hne hsegments, if_neg hempty, hp]
  simp

/-- What names a namespace within the only name of a line begins where the name does. -/
theorem liesWithin_of_isNamedBy {ns name root : String} (hns : IsQualified ns)
    (hname : IsQualified name) (hroot : root = "" ∨ root = "\\") {before after : List Char}
    (hbefore : ∀ c ∈ before, isNameCharOrBackslash c = false)
    (hafter : ∀ c ∈ after, isNameCharOrBackslash c = false) {front word rest : List Char}
    (h : IsNamedBy ns (before ++ ((root ++ name).toList ++ after)) front word rest) :
    LiesWithin name.toList ns.toList := by
  obtain ⟨parts, hne, hparts, rfl⟩ := hns
  obtain ⟨segments, hne', hsegments, rfl⟩ := hname
  obtain ⟨n, cs, rfl, -, hspells⟩ := h.spelled
  rw [namespaceParts_join hne hparts] at hspells
  have hopens := hspells.opens hne hparts
  have hrun : ∀ c ∈ (root ++ join "\\" segments).toList, isNameCharOrBackslash c = true := by
    rw [String.toList_append, List.forall_mem_append]
    refine ⟨fun c hc => ?_, (spellsParts_join hsegments).isName hsegments⟩
    rw [isNameCharOrBackslash, backslashes_of_root hroot c hc, Bool.or_true]
  have hword : ∀ c ∈ List.replicate n '\\' ++ cs, isNameCharOrBackslash c = true := by
    rw [List.forall_mem_append]
    refine ⟨fun c hc => ?_, hspells.isName hparts⟩
    rw [List.eq_of_mem_replicate hc]
    decide +kernel
  have hnonempty : List.replicate n '\\' ++ cs ≠ [] := by
    obtain ⟨c, cs, rfl, -⟩ := hopens
    simp
  obtain ⟨-, more, hsplit, rfl⟩ :=
    run_starts hbefore hrun hafter h.left hword hnonempty h.split
  -- Without the backslashes in front of both, the name starts with what spells the namespace.
  have hname : (join "\\" segments).toList = cs ++ more := by
    have hroots := congrArg (List.dropWhile (· == '\\')) hsplit
    rwa [String.toList_append, List.append_assoc,
      List.dropWhile_append_of_pos (backslashes_of_root hroot),
      List.dropWhile_append_of_pos (by simp),
      dropWhile_of_head (head_not_backslash ((spellsParts_join hsegments).opens hne' hsegments)),
      dropWhile_of_head (head_not_backslash _)] at hroots
    obtain ⟨c, cs, rfl, hc⟩ := hopens
    exact ⟨c, cs ++ more, rfl, hc⟩
  refine ⟨cs, more, hname, ?_, ?_⟩
  · apply hspells.equal hparts
    · exact fun c hc => ascii_join hsegments c (by simp [hname, hc])
    · exact fun hdoubled => not_doubled_join hsegments (hdoubled.trans ⟨[], more, by simp [hname]⟩)
  · cases more with
    | nil => exact .inl rfl
    | cons c more =>
      have hc := hrun c (by simp [hname])
      rw [isNameCharOrBackslash, h.right c rfl, Bool.false_or, beq_iff_eq] at hc
      exact .inr (congrArg some hc)

theorem isNamedBy_of_liesWithin {ns name root : String} (hns : IsQualified ns)
    (hname : IsQualified name) (hroot : root = "" ∨ root = "\\") {before after : List Char}
    (hbefore : ∀ c ∈ before, isNameCharOrBackslash c = false)
    (hafter : ∀ c ∈ after, isNameCharOrBackslash c = false)
    (h : LiesWithin name.toList ns.toList) :
    ∃ word rest, IsNamedBy ns (before ++ ((root ++ name).toList ++ after)) before word rest := by
  obtain ⟨parts, hne, hparts, rfl⟩ := hns
  obtain ⟨segments, hne', hsegments, rfl⟩ := hname
  obtain ⟨front, rest, hsplit, hfront, hrest⟩ := h
  refine ⟨root.toList ++ front, rest ++ after, ?_⟩
  exact
    { split := by
        rw [String.toList_append, hsplit]
        simp only [List.append_assoc]
      spelled := by
        obtain ⟨n, hn, hroots⟩ : ∃ n ≤ 2, root.toList = List.replicate n '\\' := by
          obtain rfl | rfl := hroot
          · exact ⟨0, Nat.zero_le 2, rfl⟩
          · exact ⟨1, Nat.le_succ 1, rfl⟩
        refine ⟨n, front, by rw [hroots], hn, ?_⟩
        rw [namespaceParts_join hne hparts]
        exact spellsParts_of_equal hparts
          (fun c hc => ascii_join hsegments c (by simp [hsplit, hc])) hfront
      left := fun c hc => hbefore c (List.mem_of_mem_getLast? hc)
      right := by
        intro c hc
        obtain rfl | hhead := hrest
        · have hclass := hafter c (List.mem_of_mem_head? hc)
          exact (Bool.or_eq_false_iff.1 hclass).1
        · rw [List.head?_append, hhead] at hc
          obtain rfl : '\\' = c := Option.some.inj hc
          exact not_isNameChar_backslash }

/-- A namespace is reported for a line that is no import just if the line refers to it. -/
theorem isMentioned_iff {p : Policy} {ns : String} (hmem : ns ∈ p.forbiddenNamespaces)
    (tokens : Option (List String)) {l : Line} (hline : importClause.atStart l.text = none) :
    IsMentioned (.ofPolicy p tokens) l ns ↔ (referenceTo ns).occurs l.text = true := by
  have hnonempty : ¬ (Searches.ofPolicy p tokens).policy.forbiddenNamespaces.isEmpty = true := by
    rw [List.isEmpty_iff]
    exact List.ne_nil_of_mem hmem
  simp only [IsMentioned, namespaceViolations, if_neg hnonempty, hline, List.mem_filterMap]
  constructor
  · rintro ⟨v, ⟨other, -, hv⟩, -, hdata⟩
    split at hv
    case isTrue hstring =>
      cases hv
      obtain rfl : other = ns := by simpa [Line.violation] using hdata
      exact occurs_referenceTo_of_stringNaming hstring
    case isFalse =>
      split at hv
      case isTrue href =>
        cases hv
        obtain rfl : other = ns := by simpa [Line.violation] using hdata
        exact href
      case isFalse => cases hv
  · intro href
    by_cases hstring : (stringNaming ns).occurs l.text = true
    · exact ⟨_, ⟨ns, hmem, if_pos hstring⟩, .inl rfl, rfl⟩
    · exact ⟨_, ⟨ns, hmem, (if_neg hstring).trans (if_pos href)⟩, .inr rfl, rfl⟩

/-- Where a line holds one name, a forbidden namespace is reported just if it covers the name, by
the text of both and in the same way by a policy that forbids no other. -/
theorem covered_names_reported (p : Policy) (tokens : Option (List String)) {ns name root : String}
    (hmem : ns ∈ p.forbiddenNamespaces) (hns : IsQualified ns) (hname : IsQualified name)
    (hroot : root = "" ∨ root = "\\") {before after : String}
    (hbefore : ∀ c ∈ before.toList, isNameCharOrBackslash c = false)
    (hafter : ∀ c ∈ after.toList, isNameCharOrBackslash c = false) (file : String) (number : Nat)
    (hline : importClause.atStart (before ++ (root ++ name) ++ after) = none) :
    let l : Line := ⟨file, number, before ++ (root ++ name) ++ after⟩
    (IsMentioned (.ofPolicy p tokens) l ns ↔ LiesWithin name.toList ns.toList) ∧
    ∀ only : Policy, only.forbiddenNamespaces = [ns] →
      (IsMentioned (.ofPolicy p tokens) l ns ↔ only.isForbiddenNamespace (root ++ name) = true) := by
  intro l
  have hiff : IsMentioned (.ofPolicy p tokens) l ns ↔ LiesWithin name.toList ns.toList := by
    have htext : l.text.toList = before.toList ++ ((root ++ name).toList ++ after.toList) := by
      simp only [l, String.toList_append, List.append_assoc]
    have hplain : importClause.atStart l.text = none := hline
    rw [isMentioned_iff hmem tokens hplain, occurs_referenceTo, htext]
    constructor
    · rintro ⟨front, word, rest, h⟩
      exact liesWithin_of_isNamedBy hns hname hroot hbefore hafter h
    · intro h
      exact ⟨before.toList, isNamedBy_of_liesWithin hns hname hroot hbefore hafter h⟩
  refine ⟨hiff, fun only honly => ?_⟩
  rw [hiff, isForbiddenNamespace_iff honly hns hname hroot]

/-- A name below the namespace is reported for it, and one that only starts like it is not. -/
theorem segments_told_apart :
    let p : Policy := { (default : Policy) with forbiddenNamespaces := ["App\\DB"] }
    IsMentioned (.ofPolicy p none) ⟨"a.php", 1, "('" ++ ("\\" ++ "app\\db\\Model") ++ "')"⟩ "App\\DB" ∧
    ¬ IsMentioned (.ofPolicy p none) ⟨"a.php", 1, "('" ++ ("\\" ++ "App\\DBAL") ++ "')"⟩ "App\\DB" := by
  intro p
  have hns : IsQualified "App\\DB" := ⟨["App", "DB"], by decide, by decide, by decide⟩
  have hquote : isNameCharOrBackslash '\'' = false := by decide +kernel
  have hbefore : ∀ c ∈ "('".toList, isNameCharOrBackslash c = false := by
    have hopen : isNameCharOrBackslash '(' = false := by decide +kernel
    simpa using ⟨hopen, hquote⟩
  have hafter : ∀ c ∈ "')".toList, isNameCharOrBackslash c = false := by
    have hclose : isNameCharOrBackslash ')' = false := by decide +kernel
    simpa using ⟨hquote, hclose⟩
  constructor
  · have hname : IsQualified "app\\db\\Model" :=
      ⟨["app", "db", "Model"], by decide, by decide, by decide⟩
    refine (covered_names_reported p none (by decide) hns hname (.inr rfl) hbefore hafter "a.php" 1
      (by decide +kernel)).1.2 ?_
    exact ⟨"app\\db".toList, "\\Model".toList, by decide, by rw [EqualIgnoringCase]; decide,
      .inr rfl⟩
  · have hname : IsQualified "App\\DBAL" := ⟨["App", "DBAL"], by decide, by decide, by decide⟩
    have honly := (covered_names_reported p none (by decide) hns hname (.inr rfl) hbefore hafter
      "a.php" 1 (by decide +kernel)).2 p rfl
    have hapart : p.isForbiddenNamespace ("\\" ++ "App\\DBAL") = false := by cbv
    rw [honly, hapart]
    exact Bool.false_ne_true

end PluginAudit.Lines
