import Mathlib
import PluginAudit.Proofs.Casing
import PluginAudit.Proofs.Separators

namespace PluginAudit.Text

section Tables

/-- Lower case leaves the character as it is. -/
def IsLowered (c : Char) : Prop :=
  ∀ r ∈ lowerRuns, r.mapped? c.toNat = none

/-- Whether the lower-case forms of a run lie outside of another, or between its characters. -/
def CaseRun.spares (r q : CaseRun) : Bool :=
  let first := (r.lo + r.shift).toNat
  Nat.blt (r.hi + r.shift).toNat q.lo || Nat.blt q.hi first ||
    (q.step == 2 && (r.lo == r.hi || r.step == 2) && (first + q.lo) % 2 == 1)

/-- The same for neighbouring runs, whose bounds are looked at first. -/
def CaseRun.sparesAll (r : CaseRun) (block : List CaseRun) : Bool :=
  let lo := (block.head?.map CaseRun.lo).getD 0
  let hi := (block.getLast?.map CaseRun.hi).getD 0
  (Nat.blt (r.hi + r.shift).toNat lo || Nat.blt hi (r.lo + r.shift).toNat) &&
      (block.all fun q => Nat.ble lo q.lo && Nat.ble q.hi hi) ||
    block.all r.spares

theorem CaseRun.spares_of_sparesAll {r q : CaseRun} {block : List CaseRun}
    (h : r.sparesAll block = true) (hq : q ∈ block) : r.spares q = true := by
  simp only [sparesAll, Bool.or_eq_true, Bool.and_eq_true, List.all_eq_true, Nat.blt_eq,
    Nat.ble_eq] at h
  obtain ⟨houtside, hbounds⟩ | h := h
  · have := hbounds q hq
    simp only [spares, Bool.or_eq_true, Nat.blt_eq]
    omega
  · exact h q hq

/-- The runs in blocks of neighbours, and what is left of them. -/
def runBlocks : Nat → List CaseRun → List (List CaseRun)
  | 0, runs => [runs]
  | n + 1, runs => runs.take 14 :: runBlocks n (runs.drop 14)

theorem flatten_runBlocks (n : Nat) (runs : List CaseRun) : (runBlocks n runs).flatten = runs := by
  induction n generalizing runs with
  | zero => simp [runBlocks]
  | succ n ih => rw [runBlocks, List.flatten_cons, ih, List.take_append_drop]

/-- What holds of every run of the table. -/
structure CaseRun.IsRegular (r : CaseRun) : Prop where
  valid : 0 ≤ r.lo + r.shift ∧
    (r.hi + r.shift < 0xD800 ∨ 0xDFFF < r.lo + r.shift ∧ r.hi + r.shift < 0x110000)
  /-- The capital letters of ASCII make up one run. -/
  ascii : r.lo = 65 ∧ r.hi = 90 ∧ r.step = 1 ∨ 128 ≤ r.lo
  notBlank : (blankRanges.toList.all fun b => (Nat.blt r.hi b.1 || Nat.blt b.2 r.lo) &&
    (Nat.blt (r.hi + r.shift).toNat b.1 || Nat.blt b.2 (r.lo + r.shift).toNat)) = true
  -- Most blocks are passed over by their bounds; run by run, the check takes many times as long.
  sparing : (runBlocks 12 lowerRuns.toList).all r.sparesAll = true

instance (r : CaseRun) : Decidable r.IsRegular :=
  decidable_of_iff (_ ∧ _ ∧ _ ∧ _)
    ⟨fun ⟨valid, ascii, notBlank, sparing⟩ => ⟨valid, ascii, notBlank, sparing⟩,
      fun h => ⟨h.valid, h.ascii, h.notBlank, h.sparing⟩⟩

theorem isRegular_of_mem : ∀ r ∈ lowerRuns.toList, r.IsRegular := by
  decide +kernel

theorem CaseRun.IsRegular.spares {r q : CaseRun} (h : r.IsRegular) (hq : q ∈ lowerRuns.toList) :
    r.spares q = true := by
  rw [← flatten_runBlocks 12 lowerRuns.toList, List.mem_flatten] at hq
  obtain ⟨block, hblock, hq⟩ := hq
  exact CaseRun.spares_of_sparesAll (List.all_eq_true.1 h.sparing block hblock) hq

theorem caseIgnorableRanges_not_letter : ∀ b ∈ caseIgnorableRanges.toList,
    b.2 < 65 ∨ 90 < b.1 ∧ b.2 < 97 ∨ 122 < b.1 := by
  decide +kernel

theorem inRanges_eq_false {ranges : Array (Nat × Nat)} {n : Nat}
    (h : ∀ b ∈ ranges.toList, n < b.1 ∨ b.2 < n) : inRanges ranges n = false := by
  simp only [inRanges, Array.any_eq_false', Bool.and_eq_true, decide_eq_true_eq]
  intro b hb
  have := h b hb.val
  omega

theorem CaseRun.mapped?_eq_none {r : CaseRun} {c : Nat} (h : c < r.lo ∨ r.hi < c) :
    r.mapped? c = none := by
  rw [CaseRun.mapped?, if_neg]
  simp only [Bool.and_eq_true, decide_eq_true_eq]
  omega

theorem CaseRun.mapped?_image {r q : CaseRun} {c n : Nat} (hr : r ∈ lowerRuns)
    (hq : q ∈ lowerRuns) (h : r.mapped? c = some n) : q.mapped? n = none := by
  by_contra hne
  obtain ⟨m, hm⟩ := Option.ne_none_iff_exists'.1 hne
  obtain ⟨hlo, hhi, hstep, rfl⟩ := r.mapped?_eq_some h
  obtain ⟨hlo', hhi', hstep', -⟩ := q.mapped?_eq_some hm
  have hvalid := (isRegular_of_mem r hr.val).valid.1
  have hspares := (isRegular_of_mem r hr.val).spares hq.val
  simp only [spares, Bool.or_eq_true, Bool.and_eq_true, Nat.blt_eq, beq_iff_eq] at hspares
  -- The character lies outside of the second run, or between the ones that it takes.
  rcases hspares with (hbelow | habove) | ⟨⟨heven, hr | hr⟩, hodd⟩
  · omega
  · omega
  · rw [heven] at hstep'
    omega
  · rw [heven] at hstep'
    rw [hr] at hstep
    omega

theorem CaseRun.toNat_image {r : CaseRun} {c n : Nat} (hr : r ∈ lowerRuns)
    (h : r.mapped? c = some n) : (Char.ofNat n).toNat = n := by
  obtain ⟨hlo, hhi, -, rfl⟩ := r.mapped?_eq_some h
  have hvalid : ((c : Int) + r.shift).toNat.isValidChar := by
    obtain ⟨hpos, hlow | hhigh⟩ := (isRegular_of_mem r hr.val).valid
    · exact .inl (by omega)
    · exact .inr ⟨by omega, by omega⟩
  simp [Char.ofNat, hvalid, Char.ofNatAux, Char.toNat]

theorem CaseRun.not_isBlank {r : CaseRun} {c n : Nat} (hr : r ∈ lowerRuns)
    (h : r.mapped? c = some n) :
    inRanges blankRanges c = false ∧ inRanges blankRanges n = false := by
  obtain ⟨hlo, hhi, -, rfl⟩ := r.mapped?_eq_some h
  have hvalid := (isRegular_of_mem r hr.val).valid.1
  have hapart := List.all_eq_true.1 (isRegular_of_mem r hr.val).notBlank
  simp only [Bool.and_eq_true, Bool.or_eq_true, Nat.blt_eq] at hapart
  constructor
  · apply inRanges_eq_false
    intro b hb
    have := (hapart b hb).1
    omega
  · apply inRanges_eq_false
    intro b hb
    have := (hapart b hb).2
    omega

end Tables

section Characters

theorem toLower_cases (c : Char) :
    ¬ (65 ≤ c.toNat ∧ c.toNat ≤ 90) ∧ c.toLower = c ∨
      (65 ≤ c.toNat ∧ c.toNat ≤ 90) ∧ 97 ≤ c.toLower.toNat ∧ c.toLower.toNat ≤ 122 := by
  by_cases hc : c.toNat < 128
  · exact ascii_forall (P := fun c => ¬ (65 ≤ c.toNat ∧ c.toNat ≤ 90) ∧ c.toLower = c ∨
      (65 ≤ c.toNat ∧ c.toNat ≤ 90) ∧ 97 ≤ c.toLower.toNat ∧ c.toLower.toNat ≤ 122)
      (by decide +kernel) hc
  · exact .inl ⟨by omega, toLower_of_le (Nat.not_lt.1 hc)⟩

theorem isAlpha_iff {c : Char} :
    c.isAlpha = true ↔ 65 ≤ c.toNat ∧ c.toNat ≤ 90 ∨ 97 ≤ c.toNat ∧ c.toNat ≤ 122 := by
  simp only [Char.isAlpha, Char.isUpper, Char.isLower, Bool.or_eq_true, Bool.and_eq_true,
    decide_eq_true_eq, ge_iff_le]
  rfl

theorem isCased_toLower (c : Char) : isCased c.toLower = isCased c := by
  obtain ⟨-, hsame⟩ | ⟨hupper, hlower⟩ := toLower_cases c
  · rw [hsame]
  · rw [isCased, isCased, if_pos (by omega), if_pos (by omega), isAlpha_iff.2 (.inl hupper),
      isAlpha_iff.2 (.inr hlower)]

theorem isCaseIgnorable_toLower (c : Char) : isCaseIgnorable c.toLower = isCaseIgnorable c := by
  have hletter {c : Char} (h : 65 ≤ c.toNat ∧ c.toNat ≤ 90 ∨ 97 ≤ c.toNat ∧ c.toNat ≤ 122) :
      isCaseIgnorable c = false := by
    apply inRanges_eq_false
    intro b hb
    have := caseIgnorableRanges_not_letter b hb
    omega
  obtain ⟨-, hsame⟩ | ⟨hupper, hlower⟩ := toLower_cases c
  · rw [hsame]
  · rw [hletter (.inl hupper), hletter (.inr hlower)]

theorem isLowered_of_ascii {c : Char} (hc : c.toNat < 128) (h : ¬ (65 ≤ c.toNat ∧ c.toNat ≤ 90)) :
    IsLowered c := by
  intro r hr
  apply CaseRun.mapped?_eq_none
  obtain ⟨hlo, hhi, -⟩ | hlo := (isRegular_of_mem r hr.val).ascii
  · omega
  · exact .inl (by omega)

theorem not_capital_of_isLowered {c : Char} (h : IsLowered c) :
    ¬ (65 ≤ c.toNat ∧ c.toNat ≤ 90) := by
  intro hc
  have hnone := h ⟨65, 90, 1, 32⟩ ⟨List.mem_cons_self⟩
  simp [CaseRun.mapped?, hc, Nat.mod_one] at hnone

theorem isLowered_lowerChar (c : Char) : IsLowered (lowerChar c) := by
  unfold lowerChar
  split
  next hc =>
    obtain ⟨hnot, hsame⟩ | ⟨-, hlower⟩ := toLower_cases c
    · rw [hsame]
      exact isLowered_of_ascii hc hnot
    · exact isLowered_of_ascii (by omega) (by omega)
  next =>
    split
    next n hn =>
      obtain ⟨r, hr, hm⟩ := Array.exists_of_findSome?_eq_some hn
      intro q hq
      rw [CaseRun.toNat_image hr hm]
      exact CaseRun.mapped?_image hr hq hm
    next hnone => exact Array.findSome?_eq_none_iff.1 hnone

theorem lowerChar_of_isLowered {c : Char} (h : IsLowered c) : lowerChar c = c := by
  unfold lowerChar
  split
  next =>
    obtain ⟨-, hsame⟩ | ⟨hcapital, -⟩ := toLower_cases c
    · exact hsame
    · exact absurd hcapital (not_capital_of_isLowered h)
  next => rw [Array.findSome?_eq_none_iff.2 h]

theorem isBlank_lowerChar (c : Char) : isBlank (lowerChar c) = isBlank c := by
  unfold lowerChar
  split
  next => exact isBlank_toLower c
  next =>
    split
    next n hn =>
      obtain ⟨r, hr, hm⟩ := Array.exists_of_findSome?_eq_some hn
      rw [isBlank, isBlank, CaseRun.toNat_image hr hm, (CaseRun.not_isBlank hr hm).1,
        (CaseRun.not_isBlank hr hm).2]
    next => rfl

end Characters

section Context

variable {before after : List Char} {c x : Char}

/-- The two special characters are of the table; what lower case puts in their place is not. -/
theorem special_forms :
    (∀ n ∈ [0x130, 0x3A3], ¬ ∀ r ∈ lowerRuns.toList, r.mapped? n = none) ∧
      ∀ n ∈ ['i', '\u0307', 'ς', 'σ'].map Char.toNat,
        (∀ r ∈ lowerRuns.toList, r.mapped? n = none) ∧
          ∀ b ∈ blankRanges.toList, n < b.1 ∨ b.2 < n := by
  decide +kernel

theorem mem_lowerIn_cases (h : x ∈ lowerIn before after c) :
    (c.toNat = 0x130 ∨ c.toNat = 0x3A3) ∧ x ∈ ['i', '\u0307', 'ς', 'σ'] ∨ x = lowerChar c := by
  unfold lowerIn at h
  split at h
  next hdot => exact .inl ⟨.inl (beq_iff_eq.1 hdot), List.mem_append_left ['ς', 'σ'] h⟩
  next =>
    split at h
    next hsigma =>
      refine .inl ⟨.inr (beq_iff_eq.1 hsigma), ?_⟩
      split at h <;> simp_all
    next => exact .inr (List.mem_singleton.1 h)

theorem isLowered_of_mem_lowerIn (h : x ∈ lowerIn before after c) : IsLowered x := by
  obtain ⟨-, hx⟩ | rfl := mem_lowerIn_cases h
  · intro r hr
    exact (special_forms.2 x.toNat (List.mem_map_of_mem hx)).1 r hr.val
  · exact isLowered_lowerChar c

theorem lowerIn_of_isLowered (h : IsLowered c) : lowerIn before after c = [c] := by
  have hdot : c.toNat ≠ 0x130 := by
    intro hc
    exact special_forms.1 0x130 (by simp) fun r hr => hc ▸ h r ⟨hr⟩
  have hsigma : c.toNat ≠ 0x3A3 := by
    intro hc
    exact special_forms.1 0x3A3 (by simp) fun r hr => hc ▸ h r ⟨hr⟩
  simp [lowerIn, hdot, hsigma, lowerChar_of_isLowered h]

theorem isBlank_of_mem_lowerIn (h : x ∈ lowerIn before after c) : isBlank x = isBlank c := by
  obtain ⟨hc, hx⟩ | rfl := mem_lowerIn_cases h
  · have hx := (special_forms.2 x.toNat (List.mem_map_of_mem hx)).2
    have hc : ∀ b ∈ blankRanges.toList, c.toNat < b.1 ∨ b.2 < c.toNat := by
      obtain hc | hc := hc <;> rw [hc] <;> decide
    rw [isBlank, isBlank, inRanges_eq_false hx, inRanges_eq_false hc]
  · exact isBlank_lowerChar c

theorem length_lowerIn (before after before' after' : List Char) (c : Char) :
    (lowerIn before after c).length = (lowerIn before' after' c).length := by
  unfold lowerIn
  split
  · rfl
  · split <;> rfl

theorem sigmaIsFinal_map_toLower (before after : List Char) :
    sigmaIsFinal (before.map Char.toLower) (after.map Char.toLower) = sigmaIsFinal before after := by
  have hskip : isCaseIgnorable ∘ Char.toLower = isCaseIgnorable := by
    funext c
    rw [Function.comp_apply, isCaseIgnorable_toLower]
  have hdrop (cs : List Char) : (cs.map Char.toLower).dropWhile isCaseIgnorable =
      (cs.dropWhile isCaseIgnorable).map Char.toLower := by
    rw [List.dropWhile_map, hskip]
  rw [sigmaIsFinal, sigmaIsFinal, hdrop, hdrop]
  cases before.dropWhile isCaseIgnorable <;> cases after.dropWhile isCaseIgnorable <;>
    simp [isCased_toLower]

theorem lowerIn_map_toLower (before after : List Char) (c : Char) :
    lowerIn (before.map Char.toLower) (after.map Char.toLower) c.toLower =
      lowerIn before after c := by
  obtain ⟨-, hsame⟩ | ⟨hupper, hlower⟩ := toLower_cases c
  · rw [hsame, lowerIn, lowerIn, sigmaIsFinal_map_toLower]
  · rw [lowerIn_ascii (by omega), lowerIn_ascii (by omega)]
    obtain ⟨-, hagain⟩ | ⟨hupper', -⟩ := toLower_cases c.toLower
    · rw [hagain]
    · omega

end Context

section Texts

variable {s t : String}

theorem lower_of_isLowered (h : ∀ c ∈ s.toList, IsLowered c) : lower s = s := by
  have hparts (cs : List Char) (hcs : ∀ c ∈ cs, IsLowered c) (before : List Char) :
      (lowerParts before cs).flatten = cs := by
    induction cs generalizing before with
    | nil => rfl
    | cons c cs ih =>
      obtain ⟨hc, hcs⟩ := List.forall_mem_cons.1 hcs
      rw [lowerParts, List.flatten_cons, lowerIn_of_isLowered hc, ih hcs]
      rfl
  apply String.toList_inj.1
  rw [toList_lower, hparts s.toList h]

theorem isLowered_of_mem_lower {x : Char} (h : x ∈ (lower s).toList) : IsLowered x := by
  have hparts (cs before : List Char) (hx : x ∈ (lowerParts before cs).flatten) : IsLowered x := by
    induction cs generalizing before with
    | nil => cases hx
    | cons c cs ih =>
      rw [lowerParts, List.flatten_cons, List.mem_append] at hx
      exact hx.elim isLowered_of_mem_lowerIn (ih (c :: before))
  rw [toList_lower] at h
  exact hparts s.toList [] h

theorem lower_lower (s : String) : lower (lower s) = lower s :=
  lower_of_isLowered fun _ => isLowered_of_mem_lower

/-- The same text up to the case of ASCII letters. -/
def SameLetters (s t : String) : Prop :=
  s.toList.map Char.toLower = t.toList.map Char.toLower

instance (s t : String) : Decidable (SameLetters s t) :=
  inferInstanceAs (Decidable (_ = _))

/-- Lower case does not tell the letters of ASCII apart. -/
theorem SameLetters.lower_eq (h : SameLetters s t) : lower s = lower t := by
  have hparts (cs before : List Char) :
      lowerParts (before.map Char.toLower) (cs.map Char.toLower) = lowerParts before cs := by
    induction cs generalizing before with
    | nil => rfl
    | cons c cs ih =>
      rw [List.map_cons, lowerParts, lowerParts, lowerIn_map_toLower, ← List.map_cons, ih]
  apply String.toList_inj.1
  rw [toList_lower, toList_lower, ← hparts s.toList [], ← hparts t.toList [], h]

theorem SameLetters.eq_empty_iff (h : SameLetters s t) : s = "" ↔ t = "" := by
  rw [← String.toList_eq_nil_iff, ← String.toList_eq_nil_iff, ← List.map_eq_nil_iff, h,
    List.map_eq_nil_iff]

theorem SameLetters.append {s' t' : String} (h : SameLetters s t) (h' : SameLetters s' t') :
    SameLetters (s ++ s') (t ++ t') := by
  rw [SameLetters, String.toList_append, String.toList_append, List.map_append, List.map_append, h,
    h']

/-- The first and the last characters of a text become characters that are as blank as they were. -/
theorem ends_lowerParts (before cs : List Char) :
    (lowerParts before cs).flatten.head?.map isBlank = cs.head?.map isBlank ∧
      (lowerParts before cs).flatten.getLast?.map isBlank = cs.getLast?.map isBlank := by
  induction cs generalizing before with
  | nil => exact ⟨rfl, rfl⟩
  | cons c cs ih =>
    have hne := lowerIn_ne_nil before cs c
    have hfirst := isBlank_of_mem_lowerIn (List.head_mem hne)
    have hlast := isBlank_of_mem_lowerIn (List.getLast_mem hne)
    -- Lower case leaves no character out, so that each end comes from the end it was.
    rw [lowerParts, List.flatten_cons, List.head?_append_of_ne_nil _ hne,
      List.head?_eq_some_head hne, List.getLast?_append, List.getLast?_eq_some_getLast hne]
    refine ⟨by simpa using hfirst, ?_⟩
    cases cs with
    | nil => simpa [lowerParts] using hlast
    | cons d cs =>
      have hrest := (ih (c :: before)).2
      obtain ⟨x, hx⟩ : ∃ x, (lowerParts (c :: before) (d :: cs)).flatten.getLast? = some x := by
        cases h : (lowerParts (c :: before) (d :: cs)).flatten.getLast? with
        | none => simp [h] at hrest
        | some x => exact ⟨x, rfl⟩
      rw [hx] at hrest ⊢
      simpa using hrest

theorem strip_eq_self_iff : strip s = s ↔
    s.toList.head?.map isBlank ≠ some true ∧ s.toList.getLast?.map isBlank ≠ some true := by
  have hlist : strip s = s ↔ dropEndWhile isBlank (s.toList.dropWhile isBlank) = s.toList := by
    rw [← String.toList_inj, strip, trim, String.toList_ofList]
  have hnot (o : Option Char) : o.map isBlank ≠ some true ↔ ∀ c ∈ o, isBlank c = false := by
    cases o <;> simp
  rw [hlist, hnot, hnot]
  constructor
  · intro h
    -- What is left is within what the first of the two steps leaves, so that takes nothing away.
    have hsuffix := List.dropWhile_suffix (l := s.toList) isBlank
    have hprefix := List.rdropWhile_prefix isBlank (s.toList.dropWhile isBlank)
    rw [← dropEndWhile_eq, h] at hprefix
    have hfront : s.toList.dropWhile isBlank = s.toList :=
      hsuffix.eq_of_length_le hprefix.length_le
    rw [hfront] at h
    constructor
    · intro c hc
      obtain ⟨rest, hrest⟩ := List.head?_eq_some_iff.1 hc
      have hfirst := List.dropWhile_eq_self_iff.1 hfront (by simp [hrest])
      simpa [hrest] using hfirst
    · intro c hc
      obtain ⟨hne, rfl⟩ := List.mem_getLast?_eq_getLast hc
      exact Bool.eq_false_iff.2 (List.rdropWhile_eq_self_iff.1 h hne)
  · rintro ⟨hhead, hlast⟩
    rw [dropWhile_of_head hhead, dropEndWhile_of_last hlast]

/-- White space at the ends of a text comes neither nor goes. -/
theorem strip_lower_eq_self_iff : strip (lower s) = lower s ↔ strip s = s := by
  obtain ⟨hhead, hlast⟩ := ends_lowerParts [] s.toList
  rw [strip_eq_self_iff, strip_eq_self_iff, toList_lower, hhead, hlast]

theorem singleton_prefix_lower_iff {x : Char} (hx : IsCaseless x) :
    [x] <+: (lower s).toList ↔ [x] <+: s.toList := by
  constructor
  · exact prefix_of_prefix_lower (by simpa using hx)
  · rintro ⟨rest, hrest⟩
    rw [toList_lower, ← hrest, List.singleton_append, lowerParts, lowerIn_self hx,
      List.flatten_cons]
    exact List.prefix_append ..

theorem eq_of_sublist_of_sum_eq {f : Char → Nat} (hf : ∀ c, 0 < f c) {cs ds : List Char}
    (h : cs.Sublist ds) (hsum : (cs.map f).sum = (ds.map f).sum) : cs = ds := by
  induction h with
  | slnil => rfl
  | @cons cs ds d h _ =>
    have hle := (h.map f).sum_le_sum (fun _ _ => Nat.zero_le _)
    have hd := hf d
    rw [List.map_cons, List.sum_cons] at hsum
    omega
  | @cons_cons cs ds d _ ih =>
    rw [List.map_cons, List.map_cons, List.sum_cons, List.sum_cons] at hsum
    rw [ih (by omega)]

theorem length_lower (s : String) : (lower s).toList.length =
    (s.toList.map fun c => (lowerIn [] [] c).length).sum := by
  have hparts (cs before : List Char) : (lowerParts before cs).flatten.length =
      (cs.map fun c => (lowerIn [] [] c).length).sum := by
    induction cs generalizing before with
    | nil => rfl
    | cons c cs ih =>
      rw [lowerParts, List.flatten_cons, List.length_append, ih, List.map_cons, List.sum_cons,
        length_lowerIn before cs [] []]
  rw [toList_lower, hparts]

/-- A text from which something is left out is another one in lower case too. -/
theorem eq_of_lower_eq (h : s.toList.Sublist t.toList) (hlower : lower s = lower t) : s = t := by
  apply String.toList_inj.1
  apply eq_of_sublist_of_sum_eq (f := fun c => (lowerIn [] [] c).length) ?_ h
  · rw [← length_lower, ← length_lower, hlower]
  · exact fun c => List.length_pos_iff.2 (lowerIn_ne_nil [] [] c)

end Texts

end PluginAudit.Text
