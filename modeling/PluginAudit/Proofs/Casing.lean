import PluginAudit.Text.Blank
import PluginAudit.Text.Case
import Mathlib

namespace PluginAudit.Text

/-- A character of ASCII that is no letter. -/
def IsCaseless (x : Char) : Prop :=
  x.toNat < 128 ∧ x.isAlpha = false

instance (x : Char) : Decidable (IsCaseless x) :=
  inferInstanceAs (Decidable (_ ∧ _))

/-- A property of the characters of ASCII, checked one by one. -/
theorem ascii_forall {P : Char → Prop} (h : ∀ n < 128, P (Char.ofNat n)) {c : Char}
    (hc : c.toNat < 128) : P c := by
  have hn := h c.toNat hc
  rwa [Char.ofNat_toNat] at hn

theorem toLower_ascii {c : Char} (hc : c.toNat < 128) :
    c.toLower = c ∨ (c.isAlpha = true ∧ c.toLower.isAlpha = true) := by
  exact ascii_forall (P := fun c => c.toLower = c ∨ (c.isAlpha = true ∧ c.toLower.isAlpha = true))
    (by decide) hc

theorem toLower_of_le {c : Char} (hc : 128 ≤ c.toNat) : c.toLower = c := by
  rw [Char.toLower, dif_neg]
  rintro ⟨-, hupper⟩
  exact Nat.not_lt_of_le hc (Nat.lt_of_le_of_lt hupper (by decide))

theorem isBlank_toLower (c : Char) : isBlank c.toLower = isBlank c := by
  by_cases hc : c.toNat < 128
  · exact ascii_forall (P := fun c => isBlank c.toLower = isBlank c) (by decide +kernel) hc
  · rw [toLower_of_le (Nat.le_of_not_lt hc)]

/-- Beyond ASCII, the lower-case form of a character is beyond ASCII too, or a letter. -/
theorem lowerRuns_range : ∀ r ∈ lowerRuns.toList, r.hi < 128 ∨
    ((128 : Int) ≤ r.lo + r.shift ∧ r.hi + r.shift < 0xD800) ∨
    ((0xE000 : Int) ≤ r.lo + r.shift ∧ r.hi + r.shift < 0x110000) ∨
    (r.lo = r.hi ∧ (Char.ofNat (r.lo + r.shift).toNat).isAlpha = true) := by
  decide +kernel

theorem CaseRun.mapped?_eq_some {r : CaseRun} {c n : Nat} (h : r.mapped? c = some n) :
    r.lo ≤ c ∧ c ≤ r.hi ∧ (c - r.lo) % r.step = 0 ∧ n = (c + r.shift).toNat := by
  unfold CaseRun.mapped? at h
  split at h
  next hr =>
    simp only [Bool.and_eq_true, decide_eq_true_eq, beq_iff_eq] at hr
    exact ⟨hr.1.1, hr.1.2, hr.2, (Option.some.inj h).symm⟩
  next => cases h

theorem not_caseless_of_le {n : Nat} (hn : 128 ≤ n) (hv : n.isValidChar) :
    ¬ IsCaseless (Char.ofNat n) := by
  have he : (Char.ofNat n).toNat = n := by
    simp [Char.ofNat, hv, Char.ofNatAux, Char.toNat]
  rintro ⟨hx, _⟩
  omega

theorem CaseRun.not_caseless_of_mapped {r : CaseRun} {c n : Nat} (hr : r ∈ lowerRuns)
    (hc : 128 ≤ c) (h : r.mapped? c = some n) : ¬ IsCaseless (Char.ofNat n) := by
  obtain ⟨hlo, hhi, -, rfl⟩ := r.mapped?_eq_some h
  rcases lowerRuns_range r hr.val with hr | hr | hr | ⟨he, hr⟩
  · omega
  · exact not_caseless_of_le (by omega) (.inl (by omega))
  · exact not_caseless_of_le (by omega) (.inr ⟨by omega, by omega⟩)
  · have hc : c = r.lo := by omega
    subst hc
    intro hx
    rw [hx.2] at hr
    cases hr

theorem lowerChar_eq_iff {x c : Char} (hx : IsCaseless x) : lowerChar c = x ↔ c = x := by
  unfold lowerChar
  split
  next hc =>
    rcases toLower_ascii hc with he | ⟨ha, hl⟩
    · rw [he]
    · constructor
      · intro h
        rw [h, hx.2] at hl
        cases hl
      · intro h
        rw [h, hx.2] at ha
        cases ha
  next hc =>
    have hne : c ≠ x := by
      rintro rfl
      exact hc hx.1
    split
    next n hn =>
      obtain ⟨r, hr, hm⟩ := Array.exists_of_findSome?_eq_some hn
      have h := CaseRun.not_caseless_of_mapped hr (by omega) hm
      constructor
      · intro he
        exact absurd (he ▸ hx) h
      · intro he
        exact absurd he hne
    next => rfl

theorem foldPairs_apart :
    ∀ e ∈ foldPairs.toList, 128 ≤ e.1 ∧ ¬ IsCaseless (Char.ofNat e.2) := by
  decide +kernel

theorem foldChar_eq_iff {x c : Char} (hx : IsCaseless x) : foldChar c = x ↔ c = x := by
  rw [← lowerChar_eq_iff (c := c) hx, foldChar]
  split
  case h_1 a n he =>
    obtain ⟨hle, hcased⟩ :=
      foldPairs_apart _ (Array.mem_toList_iff.2 (Array.mem_of_find?_eq_some he))
    have hkey : a = (lowerChar c).toNat := by simpa using Array.find?_some he
    constructor
    · rintro rfl
      exact absurd hx hcased
    · intro h
      rw [h] at hkey
      exact absurd hx.1 (Nat.not_lt_of_le (hkey ▸ hle))
  case h_2 => exact Iff.rfl

theorem sameFolded_caseless {x c : Char} (hx : IsCaseless x) : sameFolded x c = true ↔ c = x := by
  rw [sameFolded, Bool.or_eq_true, beq_iff_eq, beq_iff_eq, (foldChar_eq_iff hx).2 rfl,
    eq_comm (b := foldChar c), foldChar_eq_iff hx, eq_comm, or_self]

/-- The lower-case forms of the characters of a text, one after the other. -/
def lowerParts (before : List Char) : List Char → List (List Char)
  | [] => []
  | c :: rest => lowerIn before rest c :: lowerParts (c :: before) rest

theorem lowerFrom_eq (before acc cs : List Char) :
    lowerFrom before acc cs = acc.reverse ++ (lowerParts before cs).flatten := by
  induction cs generalizing before acc with
  | nil => simp [lowerFrom, lowerParts]
  | cons c rest ih => simp [lowerFrom, lowerParts, ih]

theorem lowerIn_ascii {c : Char} (hc : c.toNat < 128) (before after : List Char) :
    lowerIn before after c = [c.toLower] := by
  have h₁ : ¬ c.toNat = 0x130 := by omega
  have h₂ : ¬ c.toNat = 0x3A3 := by omega
  simp [lowerIn, lowerChar, h₁, h₂, hc]

theorem lowerParts_ascii {cs : List Char} (h : ∀ c ∈ cs, c.toNat < 128) (before : List Char) :
    (lowerParts before cs).flatten = cs.map Char.toLower := by
  induction cs generalizing before with
  | nil => rfl
  | cons c rest ih =>
    have hc := h c (by simp)
    have hr := ih (fun d hd => h d (by simp [hd])) (c :: before)
    simp [lowerParts, lowerIn_ascii hc, hr]

theorem toList_lower (s : String) : (lower s).toList = (lowerParts [] s.toList).flatten := by
  unfold lower
  split
  next h =>
    have hs : ∀ c ∈ s.toList, c.toNat < 128 := by simpa using h
    rw [String.toList_map, lowerParts_ascii hs]
  next => rw [String.toList_ofList, lowerFrom_eq]; rfl

theorem lowerIn_ne_nil (before after : List Char) (c : Char) : lowerIn before after c ≠ [] := by
  unfold lowerIn
  split
  · simp
  · split <;> simp

theorem eq_empty_of_lower {s : String} (h : lower s = "") : s = "" := by
  have hparts := toList_lower s
  rw [h] at hparts
  cases hs : s.toList with
  | nil => exact String.toList_eq_nil_iff.1 hs
  | cons c rest =>
    rw [hs, lowerParts, List.flatten_cons] at hparts
    exact absurd (List.append_eq_nil_iff.1 hparts.symm).1 (lowerIn_ne_nil _ _ _)

theorem lowerIn_self {x : Char} (hx : IsCaseless x) (before after : List Char) :
    lowerIn before after x = [x] := by
  have he := (lowerChar_eq_iff hx).mpr rfl
  have h := hx.1
  rw [lowerIn_ascii h]
  simpa [lowerChar, h] using he

theorem eq_of_mem_lowerIn {x c : Char} {before after : List Char} (hx : IsCaseless x)
    (h : x ∈ lowerIn before after c) : c = x := by
  unfold lowerIn at h
  split at h
  · have : ¬ IsCaseless 'i' ∧ ¬ IsCaseless '\u0307' := by decide
    simp only [List.mem_cons, List.not_mem_nil, or_false] at h
    rcases h with rfl | rfl
    · exact absurd hx this.1
    · exact absurd hx this.2
  · split at h
    · have : ¬ IsCaseless 'ς' ∧ ¬ IsCaseless 'σ' := by decide
      split at h
      · rw [List.mem_singleton.mp h] at hx
        exact absurd hx this.1
      · rw [List.mem_singleton.mp h] at hx
        exact absurd hx this.2
    · exact (lowerChar_eq_iff hx).mp (List.mem_singleton.mp h).symm

variable {w : List Char}

theorem prefix_of_prefix_lowerParts (hw : ∀ x ∈ w, IsCaseless x) {before cs : List Char}
    (h : w <+: (lowerParts before cs).flatten) : w <+: cs := by
  induction cs generalizing w before with
  | nil => exact h
  | cons c rest ih =>
    cases w with
    | nil => exact List.nil_prefix
    | cons x w =>
      have hx := hw x (by simp)
      rw [lowerParts, List.flatten_cons] at h
      obtain ⟨d, p, hp⟩ := List.exists_cons_of_ne_nil (lowerIn_ne_nil before rest c)
      have hd : x = d := by
        rw [hp, List.cons_append, List.cons_prefix_cons] at h
        exact h.1
      have hc : c = x := eq_of_mem_lowerIn hx (by rw [hp, hd]; simp)
      rw [hc, lowerIn_self hx, List.singleton_append, List.cons_prefix_cons] at h
      rw [hc, List.cons_prefix_cons]
      exact ⟨rfl, ih (fun y hy => hw y (by simp [hy])) h.2⟩

theorem infix_append_of_head_not_mem {x : Char} {p r : List Char} (hx : x ∉ p)
    (h : x :: w <:+: p ++ r) : x :: w <:+: r := by
  induction p with
  | nil => exact h
  | cons d p ih =>
    rw [List.mem_cons, not_or] at hx
    rw [List.cons_append, List.infix_cons_iff] at h
    rcases h with h | h
    · exact absurd (List.cons_prefix_cons.mp h).1 hx.1
    · exact ih hx.2 h

theorem infix_of_infix_lowerParts (hw : ∀ x ∈ w, IsCaseless x) {before cs : List Char}
    (h : w <:+: (lowerParts before cs).flatten) : w <:+: cs := by
  cases w with
  | nil => exact List.nil_infix
  | cons x w =>
    have hx := hw x (by simp)
    induction cs generalizing before with
    | nil => exact h
    | cons c rest ih =>
      rw [lowerParts, List.flatten_cons] at h
      by_cases hm : x ∈ lowerIn before rest c
      · have hc := eq_of_mem_lowerIn hx hm
        -- The occurrence starts at this character or lies after it.
        have hp := lowerIn_self hx before rest
        rw [hc, hp, List.singleton_append, List.infix_cons_iff] at h
        rw [hc, List.infix_cons_iff]
        rcases h with h | h
        · left
          rw [List.cons_prefix_cons] at h ⊢
          exact ⟨rfl, prefix_of_prefix_lowerParts (fun y hy => hw y (by simp [hy])) h.2⟩
        · exact .inr (ih h)
      · exact List.infix_cons (ih (infix_append_of_head_not_mem hm h))

theorem prefix_of_prefix_lower (hw : ∀ x ∈ w, IsCaseless x) {s : String}
    (h : w <+: (lower s).toList) : w <+: s.toList := by
  rw [toList_lower] at h
  exact prefix_of_prefix_lowerParts hw h

theorem infix_of_infix_lower (hw : ∀ x ∈ w, IsCaseless x) {s : String}
    (h : w <:+: (lower s).toList) : w <:+: s.toList := by
  rw [toList_lower] at h
  exact infix_of_infix_lowerParts hw h

end PluginAudit.Text
