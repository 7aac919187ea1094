import Mathlib.Data.List.Perm.Subperm
import PluginAudit.FailPolicy

namespace PluginAudit

/-- The first item of a list with a property. -/
def IsFirst {α : Type} (P : α → Prop) (xs : List α) (x : α) : Prop :=
  ∃ before after, xs = before ++ x :: after ∧ P x ∧ ∀ y ∈ before, ¬ P y

section First

variable {α : Type} {P Q : α → Prop} {xs : List α} {x : α}

theorem IsFirst.holds (h : IsFirst P xs x) : P x := by
  obtain ⟨-, -, -, hx, -⟩ := h
  exact hx

theorem IsFirst.mem (h : IsFirst P xs x) : x ∈ xs := by
  obtain ⟨before, after, rfl, -, -⟩ := h
  exact List.mem_append_right before List.mem_cons_self

theorem IsFirst.exists_mem (h : IsFirst P xs x) : ∃ x ∈ xs, P x :=
  ⟨x, h.mem, h.holds⟩

theorem IsFirst.mono (h : IsFirst P xs x) (hx : Q x) (hQP : ∀ y, Q y → P y) : IsFirst Q xs x := by
  obtain ⟨before, after, rfl, -, hbefore⟩ := h
  exact ⟨before, after, rfl, hx, fun y hy hQ => hbefore y hy (hQP y hQ)⟩

theorem IsFirst.congr (h : IsFirst P xs x) (hPQ : ∀ y, P y ↔ Q y) : IsFirst Q xs x :=
  h.mono ((hPQ x).1 h.holds) fun y => (hPQ y).2

theorem find?_eq_some_iff_isFirst {test : α → Bool} (htest : ∀ y, test y = true ↔ P y) :
    xs.find? test = some x ↔ IsFirst P xs x := by
  rw [List.find?_eq_some_iff_append]
  constructor
  · rintro ⟨hx, before, after, rfl, hbefore⟩
    refine ⟨before, after, rfl, (htest x).1 hx, fun y hy hP => ?_⟩
    simpa [(htest y).2 hP] using hbefore y hy
  · rintro ⟨before, after, rfl, hx, hbefore⟩
    refine ⟨(htest x).2 hx, before, after, rfl, fun y hy => ?_⟩
    simpa [← htest] using hbefore y hy

theorem find?_eq_none_iff_not_exists {test : α → Bool} (htest : ∀ y, test y = true ↔ P y) :
    xs.find? test = none ↔ ¬ ∃ x ∈ xs, P x := by
  simp [← htest]

end First

namespace FailPolicy

variable {p : FailPolicy} {root : String} {log other : List Violation}

/-- A violation is of a type that must not occur. -/
def Blocked (p : FailPolicy) (log : List Violation) : Prop :=
  ∃ v ∈ log, v.type ∈ p.typesBlocklist

/-- There are more violations than a limit that is not negative. -/
def TooMany (p : FailPolicy) (log : List Violation) : Prop :=
  ∃ limit, p.totalLimit = some limit ∧ 0 ≤ limit.value ∧ limit.value < log.length

/-- There are more violations of a type than its limit, which is not negative. -/
def Exceeds (log : List Violation) (limit : String × Int) : Prop :=
  0 ≤ limit.2 ∧ limit.2 < (log.filter fun v => v.type == limit.1).length

def TooManyOfType (p : FailPolicy) (log : List Violation) : Prop :=
  ∃ limit ∈ p.typeLimits, Exceeds log limit

/-- A gate matches one of the forms of a path. -/
def Shuts (root file gate : String) : Prop :=
  ∃ path ∈ candidates root file, (Text.Glob.ofText gate).matchesText path = true

/-- There is a file, and a gate that matches it. -/
def Shut (p : FailPolicy) (root file : String) : Prop :=
  file ≠ "" ∧ ∃ gate ∈ p.fileGates, Shuts root file gate

def Gated (p : FailPolicy) (root : String) (log : List Violation) : Prop :=
  ∃ v ∈ log, p.Shut root v.file

/-- Some rule holds. -/
def Fails (p : FailPolicy) (root : String) (log : List Violation) : Prop :=
  p.Blocked log ∨ p.TooMany log ∨ p.TooManyOfType log ∨ p.Gated root log

/-- The verdict of the first rule that holds, with the first violation, limit and gate for which it
does. -/
inductive Gives (p : FailPolicy) (root : String) (log : List Violation) : Verdict → Prop
  | blocked {v : Violation} :
    IsFirst (fun v => v.type ∈ p.typesBlocklist) log v →
      Gives p root log ⟨true, s!"Violation type '{v.type}' is blocklisted", v.type, v.file⟩
  | tooMany {limit : Limit} :
    ¬ p.Blocked log → p.totalLimit = some limit → 0 ≤ limit.value → limit.value < log.length →
      Gives p root log ⟨true,
        s!"{log.length} violations exceed the total limit of {limit.toValue.asText}", "", ""⟩
  | tooManyOfType {type : String} {limit : Int} :
    ¬ p.Blocked log → ¬ p.TooMany log → IsFirst (Exceeds log) p.typeLimits (type, limit) →
      Gives p root log ⟨true,
        s!"{countOf log type} '{type}' violations exceed the limit of {limit}", type, ""⟩
  | gated {v : Violation} {gate : String} :
    ¬ p.Blocked log → ¬ p.TooMany log → ¬ p.TooManyOfType log →
      IsFirst (fun v => p.Shut root v.file) log v →
      IsFirst (Shuts root v.file) p.fileGates gate →
      Gives p root log ⟨true, s!"Violation in gated path '{gate}'", v.type, v.file⟩
  | pass : ¬ p.Fails root log → Gives p root log .pass

section Rules

theorem countOf_eq (log : List Violation) (type : String) :
    countOf log type = (log.filter fun v => v.type == type).length :=
  List.countP_eq_length_filter

theorem exceededBy_iff {limit : Limit} {n : Nat} :
    limit.exceededBy n = true ↔ 0 ≤ limit.value ∧ limit.value < n := by
  simp [Limit.exceededBy]

theorem blockedType?_eq_none_iff : p.blockedType? log = none ↔ ¬ p.Blocked log := by
  rw [blockedType?, Option.map_eq_none_iff,
    find?_eq_none_iff_not_exists fun _ => List.contains_iff_mem, Blocked]

theorem tooMany?_eq_some {w : Verdict} (h : p.tooMany? log = some w) :
    ∃ limit, p.totalLimit = some limit ∧ 0 ≤ limit.value ∧ limit.value < log.length ∧
      w = ⟨true, s!"{log.length} violations exceed the total limit of {limit.toValue.asText}",
        "", ""⟩ := by
  unfold tooMany? at h
  split at h
  case h_1 limit hlimit =>
    split at h
    case isTrue hexceeded =>
      obtain ⟨hpos, hmany⟩ := exceededBy_iff.1 hexceeded
      exact ⟨limit, hlimit, hpos, hmany, (Option.some.inj h).symm⟩
    case isFalse => cases h
  case h_2 => cases h

theorem tooMany?_eq_none_iff : p.tooMany? log = none ↔ ¬ p.TooMany log := by
  unfold tooMany? TooMany
  cases p.totalLimit with
  | none => simp
  | some limit => simp [← exceededBy_iff]

theorem exceeds_iff {limit : String × Int} :
    (Limit.count limit.2).exceededBy (countOf log limit.1) = true ↔ Exceeds log limit := by
  rw [exceededBy_iff, countOf_eq, Exceeds]
  rfl

theorem tooManyOfType?_eq_none_iff : p.tooManyOfType? log = none ↔ ¬ p.TooManyOfType log := by
  rw [tooManyOfType?, Option.map_eq_none_iff, find?_eq_none_iff_not_exists fun _ => exceeds_iff,
    TooManyOfType]

theorem shuts_iff {file gate : String} :
    (candidates root file).any (Text.Glob.ofText gate).matchesText = true ↔
      Shuts root file gate :=
  List.any_eq_true

theorem gateFor?_eq_some_iff {file gate : String} :
    p.gateFor? root file = some gate ↔ file ≠ "" ∧ IsFirst (Shuts root file) p.fileGates gate := by
  rw [gateFor?, ← find?_eq_some_iff_isFirst fun _ => shuts_iff]
  simp

theorem gateFor?_eq_none_iff {file : String} :
    p.gateFor? root file = none ↔ ¬ p.Shut root file := by
  rw [gateFor?, Shut, not_and, ← find?_eq_none_iff_not_exists fun _ => shuts_iff]
  simp

theorem exists_gateFor?_iff {file : String} :
    (∃ gate, p.gateFor? root file = some gate) ↔ p.Shut root file := by
  rw [← Option.isSome_iff_exists, Option.isSome_iff_ne_none, Ne, gateFor?_eq_none_iff, not_not]

/-- The gate rule reports the first violation in a shut file, and the gate of that file. -/
theorem gated?_eq_some_iff {w : Verdict} :
    p.gated? root log = some w ↔
      ∃ v gate, IsFirst (fun v => p.Shut root v.file) log v ∧ p.gateFor? root v.file = some gate ∧
        w = ⟨true, s!"Violation in gated path '{gate}'", v.type, v.file⟩ := by
  constructor
  · intro h
    obtain ⟨before, v, after, hlog, hv, hbefore⟩ := List.findSome?_eq_some_iff.1 h
    obtain ⟨gate, hgate, rfl⟩ := Option.map_eq_some_iff.1 hv
    have hfirst := gateFor?_eq_some_iff.1 hgate
    refine ⟨v, gate, ⟨before, after, hlog, ⟨hfirst.1, hfirst.2.exists_mem⟩, fun u hu => ?_⟩,
      hgate, rfl⟩
    exact gateFor?_eq_none_iff.1 (Option.map_eq_none_iff.1 (hbefore u hu))
  · rintro ⟨v, gate, ⟨before, after, hlog, -, hbefore⟩, hgate, rfl⟩
    refine List.findSome?_eq_some_iff.2 ⟨before, v, after, hlog, by rw [hgate]; rfl, fun u hu => ?_⟩
    exact Option.map_eq_none_iff.2 (gateFor?_eq_none_iff.2 (hbefore u hu))

theorem gated?_eq_none_iff : p.gated? root log = none ↔ ¬ p.Gated root log := by
  simp [gated?, Gated, List.findSome?_eq_none_iff, gateFor?_eq_none_iff]

end Rules

theorem gives_evaluate (p : FailPolicy) (root : String) (log : List Violation) :
    p.Gives root log (p.evaluate root log) := by
  unfold evaluate
  cases hblocked : p.blockedType? log with
  | some w =>
    obtain ⟨v, hv, rfl⟩ := Option.map_eq_some_iff.1 hblocked
    exact .blocked ((find?_eq_some_iff_isFirst fun _ => List.contains_iff_mem).1 hv)
  | none =>
    have notBlocked := blockedType?_eq_none_iff.1 hblocked
    cases hmany : p.tooMany? log with
    | some w =>
      obtain ⟨limit, hlimit, hpos, hexceeded, rfl⟩ := tooMany?_eq_some hmany
      exact .tooMany notBlocked hlimit hpos hexceeded
    | none =>
      have notMany := tooMany?_eq_none_iff.1 hmany
      cases htype : p.tooManyOfType? log with
      | some w =>
        obtain ⟨⟨type, limit⟩, hlimit, rfl⟩ := Option.map_eq_some_iff.1 htype
        exact .tooManyOfType notBlocked notMany
          ((find?_eq_some_iff_isFirst fun _ => exceeds_iff).1 hlimit)
      | none =>
        have notType := tooManyOfType?_eq_none_iff.1 htype
        cases hgated : p.gated? root log with
        | some w =>
          obtain ⟨v, gate, hv, hgate, rfl⟩ := gated?_eq_some_iff.1 hgated
          exact .gated notBlocked notMany notType hv (gateFor?_eq_some_iff.1 hgate).2
        | none =>
          refine .pass ?_
          rintro (hfails | hfails | hfails | hfails)
          exacts [notBlocked hfails, notMany hfails, notType hfails,
            gated?_eq_none_iff.1 hgated hfails]

theorem Gives.shouldFail_iff {w : Verdict} (h : p.Gives root log w) :
    w.shouldFail = true ↔ p.Fails root log := by
  cases h with
  | blocked hfirst => exact iff_of_true rfl (.inl hfirst.exists_mem)
  | tooMany _ hlimit hpos hmany => exact iff_of_true rfl (.inr (.inl ⟨_, hlimit, hpos, hmany⟩))
  | tooManyOfType _ _ hfirst => exact iff_of_true rfl (.inr (.inr (.inl hfirst.exists_mem)))
  | gated _ _ _ hfirst _ => exact iff_of_true rfl (.inr (.inr (.inr hfirst.exists_mem)))
  | pass hpass => exact iff_of_false (by simp [Verdict.pass]) hpass

/-- What makes a run fail does so among more violations, in any order. -/
theorem Fails.subperm (h : p.Fails root log) (hsub : log.Subperm other) : p.Fails root other := by
  obtain ⟨v, hv, hblocked⟩ | ⟨limit, hlimit, hpos, hmany⟩ | ⟨limit, hlimit, hpos, hmany⟩ |
    ⟨v, hv, hshut⟩ := h
  · exact .inl ⟨v, hsub.subset hv, hblocked⟩
  · have hlength := hsub.length_le
    exact .inr (.inl ⟨limit, hlimit, hpos, by omega⟩)
  · have hlength := (hsub.filter fun v => v.type == limit.1).length_le
    exact .inr (.inr (.inl ⟨limit, hlimit, hpos, by omega⟩))
  · exact .inr (.inr (.inr ⟨v, hsub.subset hv, hshut⟩))

/-- A run fails exactly if one of the four rules holds, and the verdict is that of the first. Neither
the order of the violations nor more of them can make a run pass that fails. -/
theorem verdict_explained (p : FailPolicy) (root : String) (log : List Violation) :
    ((p.evaluate root log).shouldFail = true ↔
        p.Blocked log ∨ p.TooMany log ∨ p.TooManyOfType log ∨ p.Gated root log) ∧
      p.Gives root log (p.evaluate root log) ∧
      (∀ other, log.Perm other →
        (p.evaluate root other).shouldFail = (p.evaluate root log).shouldFail) ∧
      ∀ other, log.Subperm other → (p.evaluate root log).shouldFail = true →
        (p.evaluate root other).shouldFail = true := by
  have fails (log : List Violation) : (p.evaluate root log).shouldFail = true ↔ p.Fails root log :=
    (gives_evaluate p root log).shouldFail_iff
  have more {log other : List Violation} (hsub : log.Subperm other)
      (h : (p.evaluate root log).shouldFail = true) : (p.evaluate root other).shouldFail = true :=
    (fails other).2 (((fails log).1 h).subperm hsub)
  exact ⟨fails log, gives_evaluate p root log,
    fun other hperm => Bool.eq_iff_iff.2 ⟨more hperm.symm.subperm, more hperm.subperm⟩,
    fun other => more⟩

end FailPolicy

end PluginAudit
