import PluginAudit.Proofs.ImportItems
import PluginAudit.Proofs.Casing

namespace PluginAudit.Php

theorem Spells.lower {written word : String} (h : Spells written word) (hword : word ∈ useWords) :
    Text.lower written = word := by
  rw [← String.toList_inj, Text.toList_lower, Text.lowerParts_ascii (h.ascii hword), h]

/-- No comment stands in the import, and no blank in a name. -/
structure UseClause.Legible (c : UseClause) : Prop where
  before : c.before.Blank
  kind : ∀ k ∈ c.kind, k.gap.Blank
  segments : ∀ s ∈ c.name.segments, Unblanked s
  knownAs : ∀ a ∈ c.knownAs, a.Plain
  after : c.after.Blank

/-- No comment stands in the import, a kind of its own stands in front of a single segment, and no
segment that is no kind word reads as one. -/
structure UseClause.Plain (c : UseClause) : Prop where
  before : c.before.Blank
  kind : ∀ k ∈ c.kind, k.gap.Blank ∧ c.name.segments.length = 1
  segments : ∀ s ∈ c.name.segments, Unblanked s
  last : (c.knownAs.isSome = true ∨ c.name.IsBare) → ∀ s ∈ c.name.segments.getLast?,
    ∀ word ∈ ["function", "const"], ¬ FoldsTo s word
  knownAs : ∀ a ∈ c.knownAs, a.Plain
  after : c.after.Blank

instance : DecidablePred UseClause.Plain :=
  fun c => decidable_of_iff (c.before.Blank ∧
    (∀ k ∈ c.kind, k.gap.Blank ∧ c.name.segments.length = 1) ∧
    (∀ s ∈ c.name.segments, Unblanked s) ∧
    ((c.knownAs.isSome = true ∨ c.name.IsBare) → ∀ s ∈ c.name.segments.getLast?,
      ∀ word ∈ ["function", "const"], ¬ FoldsTo s word) ∧
    (∀ a ∈ c.knownAs, a.Plain) ∧ c.after.Blank)
    ⟨fun ⟨before, kind, segments, last, knownAs, after⟩ =>
      ⟨before, kind, segments, last, knownAs, after⟩,
    fun ⟨before, kind, segments, last, knownAs, after⟩ =>
      ⟨before, kind, segments, last, knownAs, after⟩⟩

theorem UseClause.Plain.legible {c : UseClause} (h : c.Plain) : c.Legible :=
  { before := h.before
    kind := fun k hk => (h.kind k hk).1
    segments := h.segments
    knownAs := h.knownAs
    after := h.after }

instance : DecidablePred UseClause.Legible :=
  fun c => decidable_of_iff (c.before.Blank ∧ (∀ k ∈ c.kind, k.gap.Blank) ∧
    (∀ s ∈ c.name.segments, Unblanked s) ∧ (∀ a ∈ c.knownAs, a.Plain) ∧ c.after.Blank)
    ⟨fun ⟨before, kind, segments, knownAs, after⟩ => ⟨before, kind, segments, knownAs, after⟩,
    fun ⟨before, kind, segments, knownAs, after⟩ => ⟨before, kind, segments, knownAs, after⟩⟩

/-- A name of a single segment does not read as a kind, in any case of its letters. -/
def UseName.Unworded (n : UseName) : Prop :=
  n.IsBare → ∀ s ∈ n.segments.getLast?, ∀ word ∈ ["function", "const"], ¬ FoldsTo s word

instance : DecidablePred UseName.Unworded :=
  fun n => inferInstanceAs (Decidable (n.IsBare → ∀ s ∈ n.segments.getLast?,
    ∀ word ∈ ["function", "const"], ¬ FoldsTo s word))

namespace UseName

variable {n : UseName}

theorem exists_segments (h : n.Proper) : ∃ lead last, n.segments = lead ++ [last] ∧
    n.chars = nameFront n.rooted lead ++ last.toList := by
  obtain hnil | ⟨lead, last, hsegments⟩ := List.eq_nil_or_concat n.segments
  · exact absurd hnil h.nonempty
  · rw [List.concat_eq_append] at hsegments
    refine ⟨lead, last, hsegments, ?_⟩
    rw [chars, hsegments, toList_join_concat, nameFront, List.append_assoc]

theorem chars_ne_nil (h : n.Proper) : n.chars ≠ [] := by
  obtain ⟨lead, last, hsegments, hchars⟩ := exists_segments h
  rw [hchars]
  exact List.append_ne_nil_of_right_ne_nil _ (h.identifiers last (by simp [hsegments])).toList_ne_nil

theorem join_segments_ne (h : n.Proper) : Text.join "\\" n.segments ≠ "" := by
  obtain ⟨lead, last, hsegments, -⟩ := exists_segments h
  rw [hsegments]
  exact join_concat_ne lead (h.identifiers last (by simp [hsegments]))

theorem not_isBlank_chars (h : n.Proper) (hplain : ∀ s ∈ n.segments, Unblanked s) :
    ∀ c ∈ n.chars, Text.isBlank c = false := by
  obtain ⟨lead, last, hsegments, hchars⟩ := exists_segments h
  rw [hsegments] at hplain
  rw [hchars]
  exact not_isBlank_wholeName (fun s hs => hplain s (List.mem_append_left _ hs))
    (hplain last (by simp))

theorem opens_chars (h : n.Proper) (hplain : ∀ s ∈ n.segments, Unblanked s) : Text.Opens n.chars :=
  Text.opens_of_not_isBlank (chars_ne_nil h) (not_isBlank_chars h hplain)

theorem closes_chars (h : n.Proper) (hplain : ∀ s ∈ n.segments, Unblanked s) :
    Text.Closes n.chars :=
  Text.closes_of_not_isBlank (chars_ne_nil h) (not_isBlank_chars h hplain)

theorem not_mem_mark (h : n.Proper) {x : Char} (hx : x ∈ marks) (hne : x ≠ '\\') : x ∉ n.chars := by
  obtain ⟨lead, last, hsegments, hchars⟩ := exists_segments h
  have hidentifier : ∀ s ∈ lead ++ [last], x ∉ s.toList := by
    rw [← hsegments]
    exact fun s hs => (h.identifiers s hs).not_mem_mark hx
  rw [hchars, nameFront, List.mem_append, List.mem_append, not_or, not_or]
  refine ⟨⟨?_, fun hmem => ?_⟩, hidentifier last (by simp)⟩
  · cases n.rooted <;> simp [hne]
  · obtain ⟨s, hs, hmem⟩ := List.mem_flatMap.1 hmem
    obtain hmem | hmem := List.mem_append.1 hmem
    · exact hidentifier s (List.mem_append_left _ hs) hmem
    · exact hne (List.mem_singleton.1 hmem)

/-- A name is no kind word: a backslash or no blank follows its first segment, or the segment does not
read as one. -/
theorem kind?_chars_append (h : n.Proper) (hplain : ∀ s ∈ n.segments, Unblanked s) {rest : List Char}
    (hrest : ∀ c ∈ rest.head?, c ∈ stops)
    (hbare : n.IsBare → (∀ s ∈ n.segments.getLast?, ∀ word ∈ ["function", "const"], ¬ FoldsTo s word) ∨
      ∀ c ∈ rest.head?, Text.isBlank c = false) :
    Import.kind? (n.chars ++ rest) = none := by
  have hbackslash : Text.isBlank '\\' = false := not_isBlank_mark (by decide)
  obtain ⟨lead, last, hsegments, hchars⟩ := exists_segments h
  rw [hchars]
  cases hroot : n.rooted with
  | true =>
    have h := @Import.kind?_eq_none "" (by simp) ('\\' :: (leadChars lead ++ last.toList ++ rest))
      (by simpa using backslash_mem_stops) (.inr (by simpa using hbackslash))
    simpa [nameFront] using h
  | false =>
    cases lead with
    | nil =>
      have hlast : Unblanked last := hplain last (by simp [hsegments])
      have h := Import.kind?_eq_none hlast hrest
        ((hbare ⟨hroot, by simp [hsegments]⟩).imp_left fun h => h last (by simp [hsegments]))
      simpa [nameFront, leadChars] using h
    | cons s lead =>
      have hs : Unblanked s := hplain s (by simp [hsegments])
      have h := @Import.kind?_eq_none s hs ('\\' :: (leadChars lead ++ last.toList ++ rest))
        (by simpa using backslash_mem_stops) (.inr (by simpa using hbackslash))
      simpa [nameFront, leadChars] using h

end UseName

namespace UseClause

variable {c : UseClause} {front : List String}

theorem ofItem?_core (hproper : c.Proper) (hplain : c.Plain) (kind : ImportKind)
    (hfront : ∀ s ∈ front, IsIdentifier s ∧ Unblanked s)
    (hroot : front ≠ [] → c.name.rooted = false) (hkind : front = [] → c.kind = none) :
    Import.ofItem? kind (String.ofList (leadChars front ++ c.core)) = some (c.meaning kind front) := by
  obtain ⟨lead, last, hsegments, hname⟩ := UseName.exists_segments hproper.name
  have hsegment : ∀ s ∈ lead ++ [last], IsIdentifier s ∧ Unblanked s := by
    intro s hs
    rw [← hsegments] at hs
    exact ⟨hproper.name.identifiers s hs, hplain.segments s hs⟩
  have hlast : IsIdentifier last ∧ Unblanked last := hsegment last (by simp)
  have hlead : ∀ s ∈ front ++ lead, IsIdentifier s ∧ Unblanked s := by
    intro s hs
    obtain hs | hs := List.mem_append.1 hs
    · exact hfront s hs
    · exact hsegment s (List.mem_append_left _ hs)
  have hknownAs : ∀ a ∈ c.knownAs, a.Proper ∧ a.Plain :=
    fun a ha => ⟨hproper.knownAs a ha, hplain.knownAs a ha⟩
  have hfolds : c.knownAs.isSome = true → ∀ word ∈ ["function", "const"], ¬ FoldsTo last word :=
    fun h => hplain.last (.inl h) last (by simp [hsegments])
  have hmeaning : c.meaning kind front =
      ⟨(c.kind.map KindWord.kind).getD kind, Text.join "\\" (front ++ lead ++ [last]),
        (c.knownAs.map UseAlias.name).getD last⟩ := by
    simp [meaning, hsegments, List.getLastD_eq_getLast?]
  cases hk : c.kind with
  | none =>
    have hitem : leadChars front ++ c.core = nameFront c.name.rooted (front ++ lead) ++
        ([] ++ (last.toList ++ (c.knownAs.map UseAlias.chars).getD [])) := by
      rw [core, hk, hname]
      by_cases hempty : front = []
      · simp [hempty, leadChars]
      · simp [nameFront, hroot hempty, leadChars_append]
    have h := Import.ofItem?_eq (k := none) kind c.name.rooted hlead hlast (by simp) hknownAs hfolds
    rw [Option.map_none, Option.getD_none] at h
    rw [hitem, h, hmeaning, hk]
  | some w =>
    have hfront' : front ≠ [] := fun hempty => by rw [hkind hempty] at hk; cases hk
    obtain ⟨hgap, hlength⟩ := hplain.kind w hk
    obtain rfl : lead = [] := by
      rw [hsegments, List.length_append, List.length_singleton] at hlength
      exact List.eq_nil_of_length_eq_zero (Nat.succ.inj hlength)
    have hitem : leadChars front ++ c.core = nameFront false (front ++ []) ++
        (w.chars ++ (last.toList ++ (c.knownAs.map UseAlias.chars).getD [])) := by
      rw [core, hk, hname]
      simp [nameFront, hroot hfront', leadChars]
    have hw : ∀ v ∈ some w, v.Proper ∧ v.gap.Blank := by
      intro v hv
      cases hv
      exact ⟨hproper.kind w hk, hgap⟩
    have h := Import.ofItem?_eq (k := some w) kind false hlead hlast hw hknownAs hfolds
    rw [Option.map_some, Option.getD_some] at h
    rw [hitem, h, hmeaning, hk]

theorem opens_core (hproper : c.Proper) (hlegible : c.Legible) : Text.Opens c.core := by
  have hname : Text.Opens c.name.chars := UseName.opens_chars hproper.name hlegible.segments
  rw [core]
  refine Text.Opens.append ?_ _
  cases hk : c.kind with
  | none => exact hname
  | some w => exact Text.Opens.append (KindWord.opens_chars (hproper.kind w hk)) _

theorem closes_core (hproper : c.Proper) (hlegible : c.Legible) : Text.Closes c.core := by
  have hname : Text.Closes c.name.chars := UseName.closes_chars hproper.name hlegible.segments
  rw [core]
  cases ha : c.knownAs with
  | none =>
    rw [Option.map_none, Option.getD_none, List.append_nil]
    exact hname.append _
  | some a =>
    exact Text.Closes.append
      (UseAlias.closes_chars (hproper.knownAs a ha) (hlegible.knownAs a ha)) _

theorem strip_chars (hproper : c.Proper) (hlegible : c.Legible) :
    Text.strip (String.ofList c.chars) = String.ofList c.core :=
  Text.strip_between (Gap.isBlank_chars hproper.before hlegible.before) (opens_core hproper hlegible)
    (closes_core hproper hlegible) (Gap.isBlank_chars hproper.after hlegible.after)

theorem not_mem_mark (hproper : c.Proper) (hlegible : c.Legible) {x : Char} (hx : x ∈ marks)
    (hne : x ≠ '\\') : x ∉ c.chars := by
  have hkind : x ∉ (c.kind.map KindWord.chars).getD [] := by
    cases hk : c.kind with
    | none => exact List.not_mem_nil
    | some w => exact KindWord.not_mem_mark (hproper.kind w hk) (hlegible.kind w hk) hx
  have hknownAs : x ∉ (c.knownAs.map UseAlias.chars).getD [] := by
    cases ha : c.knownAs with
    | none => exact List.not_mem_nil
    | some a => exact UseAlias.not_mem_mark (hproper.knownAs a ha) (hlegible.knownAs a ha) hx
  simp only [chars, core, List.mem_append, not_or]
  exact ⟨⟨Gap.not_mem_mark hproper.before hlegible.before hx,
    ⟨hkind, UseName.not_mem_mark hproper.name hx hne⟩, hknownAs⟩,
    Gap.not_mem_mark hproper.after hlegible.after hx⟩

end UseClause

theorem leadChars_of_ne_nil {front : List String} (hne : front ≠ []) :
    leadChars front = (Text.join "\\" front).toList ++ ['\\'] := by
  obtain hnil | ⟨lead, last, rfl⟩ := List.eq_nil_or_concat front
  · exact absurd hnil hne
  · rw [List.concat_eq_append, toList_join_concat, leadChars_append]
    simp [leadChars]

/-- No comment stands in the declaration, nor anything in front of the backslash of a group. -/
structure UseDeclaration.Plain (d : UseDeclaration) : Prop where
  gap : d.gap.Blank
  kind : ∀ k ∈ d.kind, k.gap.Blank
  base : ∀ b ∈ d.base, b.before = [] ∧ b.after.Blank ∧ ∀ s ∈ b.name.segments, Unblanked s
  clauses : ∀ c ∈ d.clauses, c.Plain
  trailing : ∀ g ∈ d.trailing, g.Blank
  closing : d.closing.Blank

instance : DecidablePred UseDeclaration.Plain :=
  fun d => decidable_of_iff (d.gap.Blank ∧ (∀ k ∈ d.kind, k.gap.Blank) ∧
    (∀ b ∈ d.base, b.before = [] ∧ b.after.Blank ∧ ∀ s ∈ b.name.segments, Unblanked s) ∧
    (∀ c ∈ d.clauses, c.Plain) ∧ (∀ g ∈ d.trailing, g.Blank) ∧ d.closing.Blank)
    ⟨fun ⟨gap, kind, base, clauses, trailing, closing⟩ =>
      ⟨gap, kind, base, clauses, trailing, closing⟩,
    fun ⟨gap, kind, base, clauses, trailing, closing⟩ =>
      ⟨gap, kind, base, clauses, trailing, closing⟩⟩

/-- No comment stands in the declaration, and no blank in a name. -/
structure UseDeclaration.Legible (d : UseDeclaration) : Prop where
  gap : d.gap.Blank
  kind : ∀ k ∈ d.kind, k.gap.Blank
  base : ∀ b ∈ d.base, b.before.Blank ∧ b.after.Blank ∧ ∀ s ∈ b.name.segments, Unblanked s
  clauses : ∀ c ∈ d.clauses, c.Legible
  trailing : ∀ g ∈ d.trailing, g.Blank
  closing : d.closing.Blank

instance : DecidablePred UseDeclaration.Legible :=
  fun d => decidable_of_iff (d.gap.Blank ∧ (∀ k ∈ d.kind, k.gap.Blank) ∧
    (∀ b ∈ d.base, b.before.Blank ∧ b.after.Blank ∧ ∀ s ∈ b.name.segments, Unblanked s) ∧
    (∀ c ∈ d.clauses, c.Legible) ∧ (∀ g ∈ d.trailing, g.Blank) ∧ d.closing.Blank)
    ⟨fun ⟨gap, kind, base, clauses, trailing, closing⟩ =>
      ⟨gap, kind, base, clauses, trailing, closing⟩,
    fun ⟨gap, kind, base, clauses, trailing, closing⟩ =>
      ⟨gap, kind, base, clauses, trailing, closing⟩⟩

theorem UseDeclaration.Plain.legible {d : UseDeclaration} (h : d.Plain) : d.Legible where
  gap := h.gap
  kind := h.kind
  base := by
    intro b hb
    obtain ⟨hbefore, hafter, hsegments⟩ := h.base b hb
    rw [hbefore]
    exact ⟨List.forall_mem_nil _, hafter, hsegments⟩
  clauses := fun c hc => (h.clauses c hc).legible
  trailing := h.trailing
  closing := h.closing

namespace GroupBase

variable {b : GroupBase}

/-- The name in front of a group, as it is put in front of each item. -/
theorem trimBackslashes_chars (hproper : b.Proper) (hbefore : b.before = []) (hafter : b.after.Blank)
    (hplain : ∀ s ∈ b.name.segments, Unblanked s) :
    Text.trimBackslashes (Text.strip (String.ofList b.chars)) = Text.join "\\" b.name.segments := by
  obtain ⟨lead, last, hsegments, hchars⟩ := UseName.exists_segments hproper.name
  have hname : Text.Opens b.name.chars := UseName.opens_chars hproper.name hplain
  have hidentifier : ∀ s ∈ lead ++ [last], IsIdentifier s := by
    rw [← hsegments]
    exact hproper.name.identifiers
  have hstrip : Text.strip (String.ofList b.chars) = String.ofList (b.name.chars ++ ['\\']) := by
    have h := Text.strip_between (List.forall_mem_nil _) (hname.append ['\\'])
      ((closes_mark (by decide)).append b.name.chars) (Gap.isBlank_chars hproper.after hafter)
    rw [← h, chars, hbefore]
    simp [Gap.chars]
  rw [hstrip, hchars, hsegments]
  exact trimBackslashes_around (fun s hs => hidentifier s (List.mem_append_left _ hs))
    (hidentifier last (by simp)) (by simp)

theorem not_mem_mark (hproper : b.Proper) (hbefore : b.before.Blank) (hafter : b.after.Blank)
    {x : Char} (hx : x ∈ marks) (hne : x ≠ '\\') : x ∉ b.chars := by
  rw [chars, List.mem_append, List.mem_append, List.mem_cons, not_or, not_or, not_or]
  exact ⟨⟨UseName.not_mem_mark hproper.name hx hne, Gap.not_mem_mark hproper.before hbefore hx⟩, hne,
    Gap.not_mem_mark hproper.after hafter hx⟩

end GroupBase

namespace Import

theorem items_of_list {cs : List Char} (h : '\x7b' ∉ cs) :
    items (String.ofList cs) = (Text.splitBy (· == ',') (String.ofList cs)).map Text.strip := by
  have hfront : cs.takeWhile (· != '\x7b') = cs := by
    rw [List.takeWhile_eq_self_iff]
    intro c hc
    simpa using fun heq : c = '\x7b' => h (heq ▸ hc)
  rw [items, String.toList_ofList, hfront, if_pos (beq_self_eq_true _)]

theorem items_of_group {front inner : List Char} (h : '\x7b' ∉ front) {base : String}
    (hbase : Text.trimBackslashes (Text.strip (String.ofList front)) = base) (hne : base ≠ "") :
    items (String.ofList (front ++ '\x7b' :: (inner ++ ['\x7d']))) =
      ((Text.splitBy (· == ',') (String.ofList inner)).map Text.strip).map
        (base ++ "\\" ++ ·) := by
  have hfront : (front ++ '\x7b' :: (inner ++ ['\x7d'])).takeWhile (· != '\x7b') = front := by
    rw [List.takeWhile_append_of_pos]
    · simp
    · intro c hc
      simpa using fun heq : c = '\x7b' => h (heq ▸ hc)
  have hlength : (front.length == (front ++ '\x7b' :: (inner ++ ['\x7d'])).length) = false := by
    rw [beq_eq_false_iff_ne]
    simp
  have hrest : (front ++ '\x7b' :: (inner ++ ['\x7d'])).drop (front.length + 1) = inner ++ ['\x7d'] := by
    simp [List.drop_append]
  have hclosing : (inner ++ ['\x7d']).reverse.dropWhile (· != '\x7d') = '\x7d' :: inner.reverse := by
    simp
  have hbase' : (base == "") = false := by simpa using hne
  rw [items, String.toList_ofList]
  simp only [hfront, hlength, Bool.false_eq_true, if_false, hrest, hclosing, hbase, hbase',
    List.isEmpty_cons, List.drop_succ_cons, List.drop_zero, List.reverse_reverse, List.map_map]
  rfl

/-- What is read of a clause behind the word in front of it. -/
def ofStem (stem : String) : List Import :=
  match kind? stem.toList with
  | some (kind, rest) => (items (String.ofList rest)).filterMap (ofItem? kind)
  | none => (items stem).filterMap (ofItem? .className)

theorem ofClause_of_use {clause : String} (h : Spells
    (Text.takeChars 3 (Text.strip (Text.trimRight (· == ';') (Text.strip clause)))) "use") :
    ofClause clause = ofStem (Text.strip (Text.dropChars 3
      (Text.strip (Text.trimRight (· == ';') (Text.strip clause))))) := by
  have huse := h.lower (by decide)
  rw [ofClause]
  simp only [huse, beq_self_eq_true, if_true]
  rw [ofStem]
  generalize Text.strip (Text.dropChars 3
    (Text.strip (Text.trimRight (· == ';') (Text.strip clause)))) = stem
  cases kind? stem.toList <;> rfl

/-- A name with a backslash behind it, and nothing else, is read as an import of that name. -/
theorem ofItem?_leadChars (kind : ImportKind) {lead : List String} {last : String}
    (hlead : ∀ s ∈ lead, IsIdentifier s ∧ Unblanked s) (hlast : IsIdentifier last ∧ Unblanked last) :
    ofItem? kind (String.ofList (leadChars (lead ++ [last]))) =
      some ⟨kind, Text.join "\\" (lead ++ [last]), last⟩ := by
  have hitem : leadChars (lead ++ [last]) = nameFront false lead ++ last.toList ++ ['\\'] := by
    simp [leadChars, nameFront]
  have hblank : ∀ c ∈ leadChars (lead ++ [last]), Text.isBlank c = false := by
    have hsegments : ∀ s ∈ lead ++ [last], Unblanked s := by
      simpa [or_imp, forall_and] using ⟨fun s hs => (hlead s hs).2, hlast.2⟩
    exact @not_isBlank_nameFront false _ hsegments
  have hne : leadChars (lead ++ [last]) ≠ [] := by simp [leadChars]
  have hlastPart : Text.lastPart '\\' (String.ofList (leadChars (lead ++ [last]))) = "" := by
    rw [hitem, Text.lastPart_append List.not_mem_nil, String.ofList_nil]
  have hkind : kind? "".toList = none := by
    have h := @kind?_eq_none "" (by simp) [] (by simp) (.inr (by simp))
    rwa [List.append_nil] at h
  have hname : Text.trimBackslashes (Text.strip (String.ofList (leadChars (lead ++ [last])))) =
      Text.join "\\" (lead ++ [last]) := by
    rw [Text.strip_of_opens (Text.opens_of_not_isBlank hne hblank)
      (Text.closes_of_not_isBlank hne hblank), hitem]
    exact trimBackslashes_around (fun s hs => (hlead s hs).1) hlast.1 (by simp)
  rw [ofItem?_of_no_kind (by rw [hlastPart, hkind]), String.toList_ofList,
    splitAlias_of_not_blank hblank, List.reverse_nil, List.nil_append, List.reverse_singleton,
    ofParts?_cons kind _ hname (join_concat_ne lead hlast.1),
    lastPart_join (hlast.1.not_mem_mark (by decide))]
  rfl

end Import

namespace UseDeclaration

variable {d : UseDeclaration}

theorem body_of_list (h : d.base = none) : d.body = [','].intercalate d.parts := by
  rw [body, h]

theorem body_of_group {b : GroupBase} (h : d.base = some b) :
    d.body = b.chars ++ '\x7b' :: ([','].intercalate d.parts ++ ['\x7d']) := by
  rw [body, h]
  exact List.append_assoc _ _ _

theorem not_mem_parts (hproper : d.Proper) (hlegible : d.Legible) {x : Char} (hx : x ∈ marks)
    (hne : x ≠ '\\') : ∀ part ∈ d.parts, x ∉ part := by
  intro part hpart
  obtain hpart | hpart := List.mem_append.1 hpart
  · obtain ⟨c, hc, rfl⟩ := List.mem_map.1 hpart
    exact UseClause.not_mem_mark (hproper.clauses c hc) (hlegible.clauses c hc) hx hne
  · cases hg : d.trailing with
    | none => rw [hg] at hpart; cases hpart
    | some g =>
      rw [hg] at hpart
      obtain rfl := List.mem_singleton.1 hpart
      exact Gap.not_mem_mark (hproper.trailing g hg) (hlegible.trailing g hg) hx

theorem splitBy_parts (hproper : d.Proper) (hlegible : d.Legible) :
    (Text.splitBy (· == ',') (String.ofList ([','].intercalate d.parts))).map Text.strip =
      d.clauses.map (fun c => String.ofList c.core) ++ (d.trailing.map fun _ => "").toList := by
  have hne : d.parts ≠ [] := by simp [parts, hproper.nonempty]
  have hclauses : d.clauses.map (Text.strip ∘ String.ofList ∘ UseClause.chars) =
      d.clauses.map fun c => String.ofList c.core :=
    List.map_congr_left fun c hc => UseClause.strip_chars (hproper.clauses c hc) (hlegible.clauses c hc)
  have htrailing : (d.trailing.map Gap.chars).toList.map (Text.strip ∘ String.ofList) =
      (d.trailing.map fun _ => "").toList := by
    cases hg : d.trailing with
    | none => rfl
    | some g =>
      have h := @Text.trim_between Text.isBlank g.chars [] []
        (Gap.isBlank_chars (hproper.trailing g hg) (hlegible.trailing g hg)) (List.forall_mem_nil _)
        (by simp) (by simp)
      simp only [List.append_nil] at h
      simpa [Text.strip] using h
  rw [Text.splitBy_intercalate (not_mem_parts hproper hlegible (by decide) (by decide)) hne, parts,
    List.map_map, List.map_append, List.map_map, htrailing, ← hclauses]
  rfl

/-- The texts that are read as items of the declaration. -/
def itemTexts (d : UseDeclaration) : List String :=
  (d.clauses.map fun c => String.ofList (leadChars d.front ++ c.core)) ++
    (d.trailing.map fun _ => String.ofList (leadChars d.front)).toList

theorem items_body (hproper : d.Proper) (hplain : d.Plain) :
    Import.items (String.ofList d.body) = d.itemTexts := by
  have hsplit := splitBy_parts hproper hplain.legible
  cases hbase : d.base with
  | none =>
    obtain ⟨htrailing, -⟩ := hproper.list hbase
    have hbody := body_of_list hbase
    have hbrace : '\x7b' ∉ d.body := by
      rw [hbody]
      exact Text.not_mem_intercalate (by decide)
        (not_mem_parts hproper hplain.legible (by decide) (by decide))
    rw [Import.items_of_list hbrace, hbody, hsplit]
    simp [itemTexts, front, hbase, htrailing, leadChars]
  | some b =>
    obtain ⟨hbefore, hafter, hsegments⟩ := hplain.base b hbase
    have hname := GroupBase.trimBackslashes_chars (hproper.base b hbase) hbefore hafter hsegments
    have hfront : d.front = b.name.segments := by rw [front, hbase]; rfl
    have hne : Text.join "\\" b.name.segments ≠ "" :=
      UseName.join_segments_ne (hproper.base b hbase).name
    have hbrace : '\x7b' ∉ b.chars :=
      GroupBase.not_mem_mark (hproper.base b hbase) (hplain.legible.base b hbase).1 hafter
        (by decide) (by decide)
    have hbody := body_of_group hbase
    have hitem : ∀ cs : List Char, Text.join "\\" b.name.segments ++ "\\" ++ String.ofList cs =
        String.ofList (leadChars d.front ++ cs) := by
      intro cs
      rw [hfront, leadChars_of_ne_nil (hproper.base b hbase).name.nonempty]
      simp [← String.toList_inj]
    have hclauses : (d.clauses.map fun c => String.ofList c.core).map
        (Text.join "\\" b.name.segments ++ "\\" ++ ·) =
        d.clauses.map fun c => String.ofList (leadChars d.front ++ c.core) := by
      rw [List.map_map]
      exact List.map_congr_left fun c _ => hitem c.core
    have htrailing : ((d.trailing.map fun _ => "").toList).map
        (Text.join "\\" b.name.segments ++ "\\" ++ ·) =
        (d.trailing.map fun _ => String.ofList (leadChars d.front)).toList := by
      cases d.trailing with
      | none => rfl
      | some g => simpa using hitem []
    rw [hbody, Import.items_of_group hbrace hname hne, hsplit, itemTexts, List.map_append, hclauses,
      htrailing]

/-- What a comma behind the last import of a group is read as: the name in front of the group. -/
def leftover (d : UseDeclaration) : List Import :=
  if d.trailing.isSome then
    [⟨d.commonKind, Text.join "\\" d.front, d.front.getLastD ""⟩]
  else []

theorem front_plain (hproper : d.Proper) (hplain : d.Plain) :
    ∀ s ∈ d.front, IsIdentifier s ∧ Unblanked s := by
  intro s hs
  cases hbase : d.base with
  | none => rw [front, hbase] at hs; cases hs
  | some b =>
    rw [front, hbase] at hs
    exact ⟨(hproper.base b hbase).name.identifiers s hs, (hplain.base b hbase).2.2 s hs⟩

/-- The comma behind the last import of a group is followed by an item without a name of its own. -/
theorem filterMap_trailing (hproper : d.Proper) (hplain : d.Plain) :
    (d.trailing.map fun _ => String.ofList (leadChars d.front)).toList.filterMap
      (Import.ofItem? d.commonKind) = d.leftover := by
  rw [leftover]
  cases htrailing : d.trailing with
  | none => rfl
  | some g =>
    obtain ⟨b, hbase⟩ : ∃ b, d.base = some b := by
      cases hbase : d.base with
      | none =>
        rw [(hproper.list hbase).1] at htrailing
        cases htrailing
      | some b => exact ⟨b, rfl⟩
    obtain ⟨lead, last, hsegments, -⟩ := UseName.exists_segments (hproper.base b hbase).name
    have hfront : d.front = lead ++ [last] := by
      rw [front, hbase, ← hsegments]
      rfl
    have hidentifier := front_plain hproper hplain
    rw [hfront] at hidentifier ⊢
    have hitem := Import.ofItem?_leadChars d.commonKind
      (fun s hs => hidentifier s (List.mem_append_left _ hs)) (hidentifier last (by simp))
    rw [Option.map_some, Option.toList_some, List.filterMap_cons_some hitem, List.filterMap_nil,
      Option.isSome_some, if_pos rfl, List.getLastD_concat]

theorem filterMap_itemTexts (hproper : d.Proper) (hplain : d.Plain) :
    d.itemTexts.filterMap (Import.ofItem? d.commonKind) = d.imports ++ d.leftover := by
  have hfront := front_plain hproper hplain
  have hroot : ∀ c ∈ d.clauses, d.front ≠ [] → c.name.rooted = false := by
    intro c hc hne
    cases hbase : d.base with
    | none => exact absurd (by rw [front, hbase]; rfl) hne
    | some b => exact hproper.group (by rw [hbase]; rfl) c hc
  have hkind : ∀ c ∈ d.clauses, d.front = [] → c.kind = none := by
    intro c hc hnil
    cases hbase : d.base with
    | none => exact (hproper.list hbase).2.1 c hc
    | some b =>
      rw [front, hbase] at hnil
      exact absurd hnil (hproper.base b hbase).name.nonempty
  have hitem : ∀ c ∈ d.clauses,
      Import.ofItem? d.commonKind (String.ofList (leadChars d.front ++ c.core)) =
        some (c.meaning d.commonKind d.front) := fun c hc =>
    UseClause.ofItem?_core (hproper.clauses c hc) (hplain.clauses c hc) d.commonKind hfront
      (hroot c hc) (hkind c hc)
  rw [itemTexts, List.filterMap_append, List.filterMap_map, Function.comp_def,
    List.filterMap_congr hitem, List.filterMap_eq_map', filterMap_trailing hproper hplain, imports]

/-- The declaration without the word in front of it, and without its end. -/
def stem (d : UseDeclaration) : List Char :=
  (d.kind.map KindWord.chars).getD [] ++ d.body

/-- A list begins with the name of its first import; a blank follows the name only in front of an
alias or of the gap behind the import. -/
theorem exists_list (hproper : d.Proper) (hlegible : d.Legible) (hbase : d.base = none) :
    ∃ c ∈ d.clauses.head?, ∃ later, d.body = c.name.chars ++ later ∧
      (∀ x ∈ later.head?, x ∈ stops) ∧
      (c.knownAs = none → c.after = [] → ∀ x ∈ later.head?, Text.isBlank x = false) := by
  obtain ⟨htrailing, hkinds, hfirst, -⟩ := hproper.list hbase
  obtain ⟨c, rest, hclauses⟩ := List.exists_cons_of_ne_nil hproper.nonempty
  have hhead : c ∈ d.clauses.head? := by rw [hclauses]; rfl
  have hc : c ∈ d.clauses := List.mem_of_mem_head? hhead
  obtain ⟨later, hlater, hcomma⟩ := Text.exists_intercalate_cons ',' c.chars
    (rest.map UseClause.chars ++ (d.trailing.map Gap.chars).toList)
  have hbody : d.body = c.chars ++ later := by
    rw [body_of_list hbase, ← hlater, parts, hclauses]
    rfl
  have hbefore : c.before.chars = [] := by rw [hfirst c hhead]; rfl
  have hmark : ∀ x ∈ later.head?, x = ',' := by
    obtain rfl | hcomma := hcomma
    · simp
    · intro x hx
      exact (Option.some.inj (hcomma.symm.trans hx)).symm
  refine ⟨c, hhead, (c.knownAs.map UseAlias.chars).getD [] ++ (c.after.chars ++ later), ?_, ?_, ?_⟩
  · rw [hbody, UseClause.chars, UseClause.core, hbefore, hkinds c hc]
    simp
  · cases ha : c.knownAs with
    | some a =>
      exact UseAlias.head_stop ((hproper.clauses c hc).knownAs a ha)
        ((hlegible.clauses c hc).knownAs a ha) _
    | none =>
      rw [Option.map_none, Option.getD_none, List.nil_append]
      by_cases hafter : c.after = []
      · rw [hafter]
        intro x hx
        obtain rfl := hmark x hx
        decide
      · exact Gap.head_stop (hproper.clauses c hc).after (hlegible.clauses c hc).after hafter later
  · intro ha hafter
    rw [ha, hafter]
    intro x hx
    obtain rfl := hmark x hx
    exact not_isBlank_mark (by decide)

theorem opens_body (hproper : d.Proper) (hlegible : d.Legible) : Text.Opens d.body := by
  cases hbase : d.base with
  | none =>
    obtain ⟨c, hhead, later, hbody, -⟩ := exists_list hproper hlegible hbase
    have hc := List.mem_of_mem_head? hhead
    rw [hbody]
    exact (UseName.opens_chars (hproper.clauses c hc).name (hlegible.clauses c hc).segments).append _
  | some b =>
    have hname := UseName.opens_chars (hproper.base b hbase).name (hlegible.base b hbase).2.2
    rw [body_of_group hbase, GroupBase.chars]
    exact ((hname.append _).append _).append _

theorem closes_body (hproper : d.Proper) (hlegible : d.Legible) : Text.Closes d.body := by
  cases hbase : d.base with
  | none =>
    obtain ⟨htrailing, hkinds, -, hlast⟩ := hproper.list hbase
    obtain hnil | ⟨init, c, hclauses⟩ := List.eq_nil_or_concat d.clauses
    · exact absurd hnil hproper.nonempty
    · rw [List.concat_eq_append] at hclauses
      have hc : c ∈ d.clauses := by simp [hclauses]
      obtain ⟨earlier, hearlier⟩ :=
        Text.exists_intercalate_concat ',' (init.map UseClause.chars) c.chars
      have hbody : d.body = earlier ++ c.chars := by
        rw [body_of_list hbase, ← hearlier, parts, hclauses, htrailing]
        simp
      have hafter : c.after.chars = [] := by rw [hlast c (by simp [hclauses])]; rfl
      rw [hbody, UseClause.chars, hafter, List.append_nil]
      exact ((UseClause.closes_core (hproper.clauses c hc) (hlegible.clauses c hc)).append _).append _
  | some b =>
    rw [body_of_group hbase, ← List.cons_append, ← List.append_assoc]
    exact (closes_mark (by decide)).append _

theorem not_mem_semicolon_body (hproper : d.Proper) (hlegible : d.Legible) : ';' ∉ d.body := by
  have hparts : ';' ∉ [','].intercalate d.parts :=
    Text.not_mem_intercalate (by decide) (not_mem_parts hproper hlegible (by decide) (by decide))
  cases hbase : d.base with
  | none => rwa [body_of_list hbase]
  | some b =>
    obtain ⟨hbefore, hafter, -⟩ := hlegible.base b hbase
    have hchars : ';' ∉ b.chars :=
      GroupBase.not_mem_mark (hproper.base b hbase) hbefore hafter (by decide) (by decide)
    rw [body_of_group hbase]
    simp [hchars, hparts]

/-- A declaration without a kind of its own does not begin as one with a kind. -/
theorem kind?_body (hproper : d.Proper) (hlegible : d.Legible)
    (hbases : ∀ b ∈ d.base, b.before ≠ [] → b.name.Unworded)
    (hfirst : d.base = none → ∀ c ∈ d.clauses.head?, c.knownAs.isSome = true ∨ c.after ≠ [] →
      c.name.Unworded) : Import.kind? d.body = none := by
  cases hbase : d.base with
  | none =>
    obtain ⟨c, hhead, later, hbody, hlater, hblank⟩ := exists_list hproper hlegible hbase
    have hc := List.mem_of_mem_head? hhead
    rw [hbody]
    refine UseName.kind?_chars_append (hproper.clauses c hc).name (hlegible.clauses c hc).segments
      hlater fun hbare => ?_
    by_cases hfollowed : c.knownAs.isSome = true ∨ c.after ≠ []
    · exact .inl (hfirst hbase c hhead hfollowed hbare)
    · rw [not_or, Bool.not_eq_true, Option.isSome_eq_false_iff, Option.isNone_iff_eq_none,
        not_not] at hfollowed
      exact .inr (hblank hfollowed.1 hfollowed.2)
  | some b =>
    obtain ⟨hbefore, -, hsegments⟩ := hlegible.base b hbase
    have hbackslash : Text.isBlank '\\' = false := not_isBlank_mark (by decide)
    have hbody : d.body = b.name.chars ++ (b.before.chars ++
        '\\' :: (b.after.chars ++ '\x7b' :: ([','].intercalate d.parts ++ ['\x7d']))) := by
      rw [body_of_group hbase, GroupBase.chars]
      simp only [List.append_assoc, List.cons_append]
    rw [hbody]
    by_cases hnil : b.before = []
    · rw [hnil]
      exact UseName.kind?_chars_append (hproper.base b hbase).name hsegments
        (by simpa [Gap.chars] using backslash_mem_stops)
        fun _ => .inr (by simpa [Gap.chars] using hbackslash)
    · exact UseName.kind?_chars_append (hproper.base b hbase).name hsegments
        (Gap.head_stop (hproper.base b hbase).before hbefore hnil _)
        fun hbare => .inl (hbases b hbase hnil hbare)

theorem opens_stem (hproper : d.Proper) (hlegible : d.Legible) : Text.Opens d.stem := by
  rw [stem]
  cases hk : d.kind with
  | none => exact opens_body hproper hlegible
  | some w => exact (KindWord.opens_chars (hproper.kind w hk)).append _

theorem not_mem_semicolon_stem (hproper : d.Proper) (hlegible : d.Legible) : ';' ∉ d.stem := by
  have hbody := not_mem_semicolon_body hproper hlegible
  rw [stem]
  cases hk : d.kind with
  | none => exact hbody
  | some w =>
    have hw : ';' ∉ w.chars :=
      KindWord.not_mem_mark (hproper.kind w hk) (hlegible.kind w hk) (by decide)
    simp [hw, hbody]

theorem strip_text (hproper : d.Proper) (hplain : d.Plain) :
    Text.strip (Text.trimRight (· == ';') (Text.strip d.text)) =
      String.ofList (d.word.toList ++ (d.gap.chars ++ d.stem)) := by
  have hclosing := Gap.isBlank_chars hproper.closing hplain.closing
  have hopens : Text.Opens (d.word.toList ++ (d.gap.chars ++ d.stem)) :=
    (hproper.word.opens (by decide)).append _
  have hcloses : Text.Closes (d.word.toList ++ (d.gap.chars ++ d.stem)) :=
    (((closes_body hproper hplain.legible).append _).append _).append _
  have hstrip : Text.strip (String.ofList (d.word.toList ++ (d.gap.chars ++ d.stem) ++ d.closing.chars)) =
      String.ofList (d.word.toList ++ (d.gap.chars ++ d.stem)) := by
    have h := Text.strip_between (List.forall_mem_nil _) hopens hcloses hclosing
    rwa [List.nil_append] at h
  have hsemicolon : ∀ cs, ';' ∉ cs → Text.dropEndWhile (· == ';') cs = cs := by
    intro cs hcs
    refine Text.dropEndWhile_of_last fun c hc => ?_
    simpa using fun heq : c = ';' => hcs (heq ▸ List.mem_of_getLast? hc)
  have hnone : ';' ∉ d.word.toList ++ (d.gap.chars ++ d.stem) := by
    simp only [List.mem_append, not_or]
    exact ⟨hproper.word.not_mem_mark (by decide) (by decide),
      Gap.not_mem_mark hproper.gap.1 hplain.gap (by decide),
      not_mem_semicolon_stem hproper hplain.legible⟩
  have hnone' : ';' ∉ d.word.toList ++ (d.gap.chars ++ d.stem) ++ d.closing.chars := by
    rw [List.mem_append, not_or]
    exact ⟨hnone, Gap.not_mem_mark hproper.closing hplain.closing (by decide)⟩
  cases hs : d.semicolon with
  | false =>
    have htext : d.text =
        String.ofList (d.word.toList ++ (d.gap.chars ++ d.stem) ++ d.closing.chars) := by
      rw [text, hs]
      simp [stem]
    rw [htext, hstrip, Text.trimRight, String.toList_ofList, hsemicolon _ hnone,
      Text.strip_of_opens hopens hcloses]
  | true =>
    have htext : d.text =
        String.ofList (d.word.toList ++ (d.gap.chars ++ d.stem) ++ d.closing.chars ++ [';']) := by
      rw [text, hs]
      simp [stem]
    have hend : Text.Closes [';'] := closes_mark (by decide)
    rw [htext, Text.strip_of_opens ((hopens.append _).append _) (hend.append _), Text.trimRight,
      String.toList_ofList, Text.dropEndWhile_append (by simp), hsemicolon _ hnone', hstrip]

/-- What is read of a declaration, with the word in front of it and without its kind. -/
theorem ofClause_text (hproper : d.Proper) (hplain : d.Plain) :
    Import.ofClause d.text = d.imports ++ d.leftover := by
  have hlength : d.word.toList.length = 3 := by simpa using congrArg List.length hproper.word
  have hclause := strip_text hproper hplain
  have hword : Text.takeChars 3 (String.ofList (d.word.toList ++ (d.gap.chars ++ d.stem))) =
      d.word := by
    rw [Text.takeChars, String.toList_ofList, List.take_left' hlength, String.ofList_toList]
  have hstem : Text.strip (Text.dropChars 3
      (String.ofList (d.word.toList ++ (d.gap.chars ++ d.stem)))) = String.ofList d.stem := by
    have h := @Text.strip_between d.gap.chars d.stem [] (Gap.isBlank_chars hproper.gap.1 hplain.gap)
      (opens_stem hproper hplain.legible) ((closes_body hproper hplain.legible).append _)
      (List.forall_mem_nil _)
    rwa [Text.dropChars, String.toList_ofList, List.drop_left' hlength, ← List.append_nil (_ ++ _)]
  have hread := filterMap_itemTexts hproper hplain
  rw [← items_body hproper hplain] at hread
  rw [Import.ofClause_of_use (by rw [hclause, hword]; exact hproper.word), hclause, hstem]
  cases hk : d.kind with
  | none =>
    have hkind : Import.kind? d.stem = none := by
      rw [stem, hk]
      exact kind?_body hproper hplain.legible (fun b hb hne => absurd (hplain.base b hb).1 hne)
        fun _ c hc _ hbare => (hplain.clauses c (List.mem_of_mem_head? hc)).last (.inr hbare)
    have hstem' : d.stem = d.body := by rw [stem, hk]; rfl
    rw [Import.ofStem, String.toList_ofList, hkind, hstem']
    rwa [commonKind, hk] at hread
  | some w =>
    have hkind : Import.kind? d.stem = some (w.kind, d.body) := by
      rw [stem, hk]
      exact Import.kind?_chars (hproper.kind w hk) (hplain.kind w hk)
        (opens_body hproper hplain.legible).head_not_isBlank
    rw [Import.ofStem, String.toList_ofList, hkind]
    rwa [commonKind, hk] at hread

end UseDeclaration

/-- The last of the imports that makes a class or a function known by a name in lower case. -/
def Import.lastKnown? (kind : ImportKind) (key : String) (imports : List Import) : Option String :=
  ((imports.filter fun i => i.kind == kind && Text.lower i.knownAs == key).getLast?).map Import.name

namespace Region

def add (r : Region) (i : Import) : Region :=
  match i.kind with
  | .function => { r with functions := r.functions.put (Text.lower i.knownAs) i.name }
  | .className => { r with classes := r.classes.put (Text.lower i.knownAs) i.name }
  | .const => r

/-- What the imports of a kind are known by; none are kept of constants. -/
def known (r : Region) : ImportKind → Table String
  | .function => r.functions
  | .className => r.classes
  | .const => []

theorem find?_known_add (r : Region) (i : Import) {kind : ImportKind} (hkind : kind ≠ .const)
    (key : String) : ((r.add i).known kind).find? key =
      if i.kind == kind && Text.lower i.knownAs == key then some i.name
      else (r.known kind).find? key := by
  have hput : ∀ t : Table String, (t.put (Text.lower i.knownAs) i.name).find? key =
      if Text.lower i.knownAs == key then some i.name else t.find? key := by
    intro t
    by_cases hkey : Text.lower i.knownAs = key
    · rw [hkey, beq_self_eq_true, if_pos rfl, Table.find?_put_self]
    · rw [beq_eq_false_iff_ne.2 hkey, if_neg Bool.false_ne_true, Table.find?_put_of_ne _ _ _ _ hkey]
  cases kind with
  | const => exact absurd rfl hkind
  | function | className =>
    rw [add]
    cases i.kind <;> first | exact hput _ | rfl

theorem find?_known_foldl (imports : List Import) (r : Region) {kind : ImportKind}
    (hkind : kind ≠ .const) (key : String) : ((imports.foldl add r).known kind).find? key =
      (Import.lastKnown? kind key imports).or ((r.known kind).find? key) := by
  induction imports using List.reverseRecOn with
  | nil => rfl
  | append_singleton rest i ih =>
    rw [List.foldl_append, List.foldl_cons, List.foldl_nil, find?_known_add _ i hkind, ih,
      Import.lastKnown?, Import.lastKnown?, List.filter_append]
    cases h : i.kind == kind && Text.lower i.knownAs == key <;> simp [h]

end Region

/-- A plain declaration is read as the imports that it lists, in order, and makes them known; a comma
behind the last import of a group is read as one more. -/
theorem use_declaration_read {d : UseDeclaration} (hproper : d.Proper) (hplain : d.Plain) :
    Import.ofClause d.text = d.imports ++ d.leftover ∧
    (d.trailing = none → Import.ofClause d.text = d.imports ∧
      ∀ (r : Region) (n : Node), n.text = d.text → ∀ kind ≠ ImportKind.const, ∀ key,
        ((r.addImports n).known kind).find? key =
          (Import.lastKnown? kind key d.imports).or ((r.known kind).find? key)) := by
  have hread := UseDeclaration.ofClause_text hproper hplain
  refine ⟨hread, fun htrailing => ?_⟩
  have hexact : Import.ofClause d.text = d.imports := by
    rw [hread, UseDeclaration.leftover, htrailing]
    exact List.append_nil _
  refine ⟨hexact, fun r n htext kind hkind key => ?_⟩
  have hfold : r.addImports n = d.imports.foldl Region.add r := by
    rw [← hexact, ← htext]
    rfl
  rw [hfold, Region.find?_known_foldl d.imports r hkind]

section Sources

instance : DecidableEq Import :=
  fun i j => decidable_of_iff (i.kind = j.kind ∧ i.name = j.name ∧ i.knownAs = j.knownAs) (by
    cases i
    cases j
    simp)

/-- The declaration `use function A\{b, c as d};`. -/
def grouped : UseDeclaration where
  kind := some ⟨.function, "function", [.blank ' ']⟩
  base := some { name := ⟨false, ["A"]⟩ }
  clauses := [{ name := ⟨false, ["b"]⟩ },
    { before := [.blank ' '], name := ⟨false, ["c"]⟩,
      knownAs := some ⟨[.blank ' '], "as", [.blank ' '], "d"⟩ }]

theorem grouped_read :
    grouped.text = "use function A\\\x7bb, c as d\x7d;" ∧
    Import.ofClause grouped.text = [⟨.function, "A\\b", "b"⟩, ⟨.function, "A\\c", "d"⟩] := by
  have hgrouped : grouped.Proper ∧ grouped.Plain ∧ grouped.trailing = none ∧
      grouped.text = "use function A\\\x7bb, c as d\x7d;" ∧
      grouped.imports = [⟨.function, "A\\b", "b"⟩, ⟨.function, "A\\c", "d"⟩] := by
    decide +kernel
  obtain ⟨hproper, hplain, htrailing, htext, himports⟩ := hgrouped
  rw [((use_declaration_read hproper hplain).2 htrailing).1, himports]
  exact ⟨htext, rfl⟩

/-- The declaration is well formed, and not read as what it imports. -/
def Misread (source : String) (d : UseDeclaration) : Prop :=
  d.Proper ∧ d.text = source ∧ Import.ofClause source ≠ d.imports

theorem misread_of_stem {source : String} {d : UseDeclaration}
    (h : let clause := Text.strip (Text.trimRight (· == ';') (Text.strip source))
      d.Proper ∧ d.text = source ∧ Spells (Text.takeChars 3 clause) "use" ∧
        Import.ofStem (Text.strip (Text.dropChars 3 clause)) ≠ d.imports) : Misread source d := by
  obtain ⟨hproper, htext, huse, hne⟩ := h
  exact ⟨hproper, htext, by rwa [Import.ofClause_of_use huse]⟩

/-- A comma behind the last import of a group, a kind in front of a name of two segments, a comment, a
blank in front of the backslash of a group, and a name that ends as a kind is spelled. -/
theorem declarations_misread :
    Misread "use A\\\x7bB, C,\x7d;"
      { base := some { name := ⟨false, ["A"]⟩ },
        clauses := [{ name := ⟨false, ["B"]⟩ }, { before := [.blank ' '], name := ⟨false, ["C"]⟩ }],
        trailing := some [] } ∧
    Misread "use A\\\x7bfunction B\\f\x7d;"
      { base := some { name := ⟨false, ["A"]⟩ },
        clauses := [{ kind := some ⟨.function, "function", [.blank ' ']⟩,
                      name := ⟨false, ["B", "f"]⟩ }] } ∧
    Misread "use A /* x */ as B;"
      { clauses := [{ name := ⟨false, ["A"]⟩,
                      knownAs := some ⟨[.blank ' ', .block " x ", .blank ' '], "as", [.blank ' '],
                        "B"⟩ }] } ∧
    Misread "use A \\\x7bB\x7d;"
      { base := some { name := ⟨false, ["A"]⟩, before := [.blank ' '] },
        clauses := [{ name := ⟨false, ["B"]⟩ }] } ∧
    Misread "use A\\function as f;"
      { clauses := [{ name := ⟨false, ["A", "function"]⟩,
                      knownAs := some ⟨[.blank ' '], "as", [.blank ' '], "f"⟩ }] } := by
  refine ⟨misread_of_stem ?_, misread_of_stem ?_, misread_of_stem ?_, misread_of_stem ?_,
    misread_of_stem ?_⟩
  · decide +kernel
  · decide +kernel
  · decide +kernel
  · decide +kernel
  · decide +kernel

end Sources

end PluginAudit.Php
