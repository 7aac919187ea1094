import PluginAudit.Text.Recognizer
import Mathlib.Data.List.Forall2

namespace PluginAudit.Text

/-- From `p` to `q`, the text is `cs`. -/
structure Place.Spells (p : Place) (cs : List Char) (q : Place) : Prop where
  after : p.after = cs ++ q.after
  before : q.before = cs.reverse ++ p.before

namespace Place

variable {p q : Place} {cs : List Char}

theorem spells_nil : p.Spells [] q ↔ p = q := by
  constructor
  · intro h
    cases p
    cases q
    simpa [eq_comm] using And.intro h.before h.after
  · rintro rfl
    exact ⟨rfl, rfl⟩

theorem spells_cons {c : Char} {before rest : List Char} :
    Spells ⟨before, c :: rest⟩ (c :: cs) q ↔ Spells ⟨c :: before, rest⟩ cs q := by
  constructor
  · rintro ⟨hafter, hbefore⟩
    exact ⟨(List.cons.inj hafter).2, by simpa using hbefore⟩
  · rintro ⟨hafter, hbefore⟩
    exact ⟨congrArg (c :: ·) hafter, by simpa using hbefore⟩

theorem spells_at_end {before : List Char} :
    Spells ⟨before, []⟩ cs q ↔ cs = [] ∧ q = ⟨before, []⟩ := by
  constructor
  · intro h
    obtain rfl : cs = [] := (List.append_eq_nil_iff.1 h.after.symm).1
    exact ⟨rfl, (spells_nil.1 h).symm⟩
  · rintro ⟨rfl, rfl⟩
    exact spells_nil.2 rfl

/-- A stretch of a text that goes on is empty, or starts with the next character. -/
theorem spells_cases {c : Char} {before rest : List Char} : Spells ⟨before, c :: rest⟩ cs q ↔
    (cs = [] ∧ q = ⟨before, c :: rest⟩) ∨ ∃ ds, cs = c :: ds ∧ Spells ⟨c :: before, rest⟩ ds q := by
  constructor
  · intro h
    cases cs with
    | nil => exact .inl ⟨rfl, (spells_nil.1 h).symm⟩
    | cons d ds =>
      obtain rfl : c = d := (List.cons.inj h.after).1
      exact .inr ⟨ds, rfl, spells_cons.1 h⟩
  · rintro (⟨rfl, rfl⟩ | ⟨ds, rfl, h⟩)
    · exact spells_nil.2 rfl
    · exact spells_cons.2 h

theorem spells_skip (before cs after : List Char) :
    Spells ⟨before, cs ++ after⟩ cs ⟨cs.reverse ++ before, after⟩ :=
  ⟨rfl, rfl⟩

theorem Spells.trans {m : Place} {ds : List Char} (h : p.Spells cs m) (h' : m.Spells ds q) :
    p.Spells (cs ++ ds) q := by
  constructor
  · rw [h.after, h'.after, List.append_assoc]
  · rw [h'.before, h.before, List.reverse_append, List.append_assoc]

theorem Spells.split {ds : List Char} (h : p.Spells (cs ++ ds) q) :
    ∃ m, p.Spells cs m ∧ m.Spells ds q := by
  refine ⟨⟨cs.reverse ++ p.before, ds ++ q.after⟩, ⟨?_, rfl⟩, rfl, ?_⟩
  · rw [h.after, List.append_assoc]
  · rw [h.before, List.reverse_append, List.append_assoc]

/-- The stretch is what has been added to the characters before the place. -/
theorem Spells.taken (h : p.Spells cs q) :
    (q.before.take (q.before.length - p.before.length)).reverse = cs := by
  rw [h.before, List.length_append, Nat.add_sub_cancel, List.take_left, List.reverse_reverse]

end Place

namespace Recognizer

variable {α β : Type}

/-- From `p` to `q`, the recognizer reads `a`. -/
def Reads (r : Recognizer α) (p : Place) (a : α) (q : Place) : Prop :=
  (a, q) ∈ r.read p

variable {r : Recognizer α} {f : α → Recognizer β} {p q : Place} {a : α} {b : β}

theorem reads_pure {x : α} : Reads (pure x) p a q ↔ a = x ∧ q = p := by
  rw [Reads]
  simp [pure]

theorem reads_bind : Reads (r >>= f) p b q ↔ ∃ a m, Reads r p a m ∧ Reads (f a) m b q := by
  simp only [Reads, bind, List.mem_flatMap, Prod.exists]

theorem reads_behind {cond : List Char → Bool} {x : Unit} :
    Reads (behind cond) p x q ↔ cond p.before = true ∧ q = p := by
  simp only [Reads, behind]
  split <;> simp_all

theorem reads_ahead {cond : List Char → Bool} {x : Unit} :
    Reads (ahead cond) p x q ↔ cond p.after = true ∧ q = p := by
  simp only [Reads, ahead]
  split <;> simp_all

theorem reads_notAfter {test : Char → Bool} {x : Unit} :
    Reads (notAfter test) p x q ↔ (∀ c ∈ p.before.head?, test c = false) ∧ q = p := by
  rw [notAfter, reads_behind]
  cases p.before <;> simp

theorem reads_notBefore {test : Char → Bool} {x : Unit} :
    Reads (notBefore test) p x q ↔ (∀ c ∈ p.after.head?, test c = false) ∧ q = p := by
  rw [notBefore, reads_ahead]
  cases p.after <;> simp

theorem wordEnd_eq_some_iff {before after ws : List Char} :
    wordEnd before ws after = some q ↔
      ∃ cs, Place.Spells ⟨before, after⟩ cs q ∧
        List.Forall₂ (fun w c => sameFolded w c = true) ws cs := by
  induction ws generalizing before after with
  | nil =>
    simp only [wordEnd, Option.some.injEq, List.forall₂_nil_left_iff]
    constructor
    · rintro rfl
      exact ⟨[], Place.spells_nil.2 rfl, rfl⟩
    · rintro ⟨cs, h, rfl⟩
      exact Place.spells_nil.1 h
  | cons w ws ih =>
    constructor
    · intro h
      cases after with
      | nil => cases h
      | cons c rest =>
        rw [wordEnd] at h
        split at h
        case isTrue hc =>
          obtain ⟨cs, hspells, hcs⟩ := ih.1 h
          exact ⟨c :: cs, Place.spells_cons.2 hspells, .cons hc hcs⟩
        case isFalse => cases h
    · rintro ⟨cs, hspells, hcs⟩
      cases hcs with
      | @cons _ c _ cs hc hcs =>
        have hafter : after = c :: (cs ++ q.after) := hspells.after
        subst hafter
        rw [wordEnd, if_pos hc]
        exact ih.2 ⟨cs, Place.spells_cons.1 hspells, hcs⟩

theorem reads_word {w : String} {x : Unit} : Reads (word w) p x q ↔
    ∃ cs, p.Spells cs q ∧ List.Forall₂ (fun w c => sameFolded w c = true) w.toList cs := by
  rw [← wordEnd_eq_some_iff]
  simp [Reads, word]

theorem reads_text_oneOf {ws : List String} {s : String} : Reads (text (oneOf ws)) p s q ↔
    ∃ w ∈ ws, ∃ cs, p.Spells cs q ∧ s = String.ofList cs ∧
      List.Forall₂ (fun w c => sameFolded w c = true) w.toList cs := by
  simp only [Reads, text, oneOf, List.mem_map, List.mem_filterMap, Option.map_eq_some_iff]
  constructor
  · rintro ⟨e, ⟨w, hw, m, hm, rfl⟩, he⟩
    obtain ⟨rfl, rfl⟩ := Prod.mk.inj he
    obtain ⟨cs, hspells, hcs⟩ := wordEnd_eq_some_iff.1 hm
    exact ⟨w, hw, cs, hspells, by rw [hspells.taken], hcs⟩
  · rintro ⟨w, hw, cs, hspells, rfl, hcs⟩
    refine ⟨((), q), ⟨w, hw, q, wordEnd_eq_some_iff.2 ⟨cs, hspells, hcs⟩, rfl⟩, ?_⟩
    rw [hspells.taken]

theorem mem_runEnds {test : Char → Bool} {ends : List (Unit × Place)} {before after : List Char}
    {x : Unit} : (x, q) ∈ runEnds test ends before after ↔
      (x, q) ∈ ends ∨ ∃ cs, Place.Spells ⟨before, after⟩ cs q ∧ ∀ c ∈ cs, test c = true := by
  induction after generalizing ends before with
  | nil =>
    simp only [runEnds, List.mem_cons, Prod.mk.injEq, Place.spells_at_end]
    constructor
    · rintro (⟨-, rfl⟩ | h)
      · exact .inr ⟨[], ⟨rfl, rfl⟩, by simp⟩
      · exact .inl h
    · rintro (h | ⟨cs, ⟨rfl, rfl⟩, -⟩)
      · exact .inr h
      · exact .inl ⟨trivial, rfl⟩
  | cons c rest ih =>
    have hends : (x, q) ∈ ((), ⟨before, c :: rest⟩) :: ends ↔
        q = ⟨before, c :: rest⟩ ∨ (x, q) ∈ ends := by simp
    have hspells : (∃ cs, Place.Spells ⟨before, c :: rest⟩ cs q ∧ ∀ d ∈ cs, test d = true) ↔
        q = ⟨before, c :: rest⟩ ∨ test c = true ∧
          ∃ cs, Place.Spells ⟨c :: before, rest⟩ cs q ∧ ∀ d ∈ cs, test d = true := by
      simp only [Place.spells_cases]
      constructor
      · rintro ⟨cs, ⟨-, rfl⟩ | ⟨ds, rfl, h⟩, hall⟩
        · exact .inl rfl
        · rw [List.forall_mem_cons] at hall
          exact .inr ⟨hall.1, ds, h, hall.2⟩
      · rintro (rfl | ⟨hc, cs, h, hall⟩)
        · exact ⟨[], .inl ⟨rfl, rfl⟩, by simp⟩
        · exact ⟨c :: cs, .inr ⟨cs, rfl, h⟩, List.forall_mem_cons.2 ⟨hc, hall⟩⟩
    rw [runEnds, hspells]
    split
    case isTrue hc =>
      rw [ih, hends]
      simp only [hc, true_and]
      tauto
    case isFalse hc =>
      rw [hends]
      simp only [hc, Bool.false_eq_true, false_and, or_false]
      tauto

theorem reads_run {test : Char → Bool} {x : Unit} : Reads (run test) p x q ↔
    ∃ cs, p.Spells cs q ∧ ∀ c ∈ cs, test c = true := by
  simp [Reads, run, mem_runEnds]

theorem reads_orElse {r s : Recognizer α} :
    Reads (orElse r s) p a q ↔ Reads r p a q ∨ Reads s p a q :=
  List.mem_append

theorem reads_optional {r : Recognizer Unit} {x : Unit} :
    Reads (optional r) p x q ↔ Reads r p x q ∨ q = p := by
  rw [optional, reads_orElse, reads_pure]
  simp

theorem reads_one {test : Char → Bool} {x : Unit} :
    Reads (one test) p x q ↔ ∃ c, test c = true ∧ p.Spells [c] q := by
  obtain ⟨before, after⟩ := p
  simp only [Reads, one]
  cases after with
  | nil =>
    constructor
    · intro h
      cases h
    · rintro ⟨c, -, h⟩
      cases h.after
  | cons d rest =>
    dsimp only
    rw [List.mem_ite_nil_right, List.mem_singleton]
    constructor
    · rintro ⟨hd, h⟩
      obtain ⟨-, rfl⟩ := Prod.mk.inj h
      exact ⟨d, hd, rfl, rfl⟩
    · rintro ⟨c, hc, h⟩
      obtain ⟨rfl, -⟩ := List.cons.inj h.after
      exact ⟨hc, congrArg (Prod.mk x) (Place.spells_nil.1 (Place.spells_cons.1 h)).symm⟩

theorem mem_timesEnds {c : Char} {least done most : Nat} {x : Unit} :
    (x, q) ∈ times.ends c least done p most ↔
      ∃ n ≤ most, least ≤ done + n ∧ p.Spells (List.replicate n c) q := by
  induction most generalizing done p with
  | zero =>
    rw [times.ends, List.mem_ite_nil_right, List.mem_singleton]
    constructor
    · rintro ⟨hleast, h⟩
      exact ⟨0, Nat.le_refl 0, hleast, Place.spells_nil.2 (Prod.mk.inj h).2.symm⟩
    · rintro ⟨n, hn, hleast, h⟩
      obtain rfl := Nat.le_zero.1 hn
      exact ⟨hleast, congrArg (Prod.mk x) (Place.spells_nil.1 h).symm⟩
  | succ most ih =>
    rw [times.ends, List.mem_append, List.mem_ite_nil_right, List.mem_ite_nil_right,
      List.mem_singleton, ih]
    obtain ⟨before, after⟩ := p
    constructor
    · rintro (⟨hhead, n, hn, hleast, h⟩ | ⟨hleast, h⟩)
      · cases after with
        | nil => cases hhead
        | cons d rest =>
          obtain rfl : d = c := by simpa using hhead
          exact ⟨n + 1, Nat.succ_le_succ hn, by omega, Place.spells_cons.2 h⟩
      · exact ⟨0, Nat.zero_le _, hleast, Place.spells_nil.2 (Prod.mk.inj h).2.symm⟩
    · rintro ⟨n, hn, hleast, h⟩
      cases n with
      | zero => exact .inr ⟨hleast, congrArg (Prod.mk x) (Place.spells_nil.1 h).symm⟩
      | succ n =>
        left
        obtain rfl : after = c :: (List.replicate n c ++ q.after) := h.after
        exact ⟨by simp, n, by omega, by omega, Place.spells_cons.1 h⟩

theorem reads_times {c : Char} {least most : Nat} {x : Unit} : Reads (times c least most) p x q ↔
    ∃ n, least ≤ n ∧ n ≤ most ∧ p.Spells (List.replicate n c) q := by
  refine mem_timesEnds.trans (exists_congr fun n => ?_)
  rw [Nat.zero_add]
  tauto

theorem reads_text {r : Recognizer Unit} {s : String} : Reads (text r) p s q ↔
    Reads r p () q ∧
      s = String.ofList (q.before.take (q.before.length - p.before.length)).reverse := by
  simp only [Reads, text, List.mem_map]
  constructor
  · rintro ⟨⟨x, m⟩, hread, he⟩
    obtain ⟨rfl, rfl⟩ := Prod.mk.inj he
    exact ⟨hread, rfl⟩
  · rintro ⟨hread, rfl⟩
    exact ⟨_, hread, rfl⟩

theorem reads_oneRun {test : Char → Bool} {x : Unit} :
    Reads (one test >>= fun _ => run test) p x q ↔
      ∃ cs, p.Spells cs q ∧ cs ≠ [] ∧ ∀ c ∈ cs, test c = true := by
  simp only [reads_bind, reads_one, reads_run]
  constructor
  · rintro ⟨-, m, ⟨c, hc, hfirst⟩, cs, hcs, htest⟩
    exact ⟨c :: cs, hfirst.trans hcs, List.cons_ne_nil c cs, List.forall_mem_cons.2 ⟨hc, htest⟩⟩
  · rintro ⟨cs, hspells, hne, htest⟩
    obtain ⟨c, cs, rfl⟩ := List.exists_cons_of_ne_nil hne
    obtain ⟨hc, htest⟩ := List.forall_mem_cons.1 htest
    rw [← List.singleton_append] at hspells
    obtain ⟨m, hfirst, hrest⟩ := hspells.split
    exact ⟨(), m, ⟨c, hc, hfirst⟩, cs, hrest, htest⟩

theorem reads_someBlanks {x : Unit} : Reads someBlanks p x q ↔
    ∃ cs, p.Spells cs q ∧ cs ≠ [] ∧ ∀ c ∈ cs, isBlank c = true :=
  reads_oneRun

theorem read_eq_nil_iff : r.read p = [] ↔ ∀ a q, ¬ Reads r p a q := by
  rw [List.eq_nil_iff_forall_not_mem, Prod.forall]
  rfl

/-- Where there is a reading, there is a preferred one. -/
theorem exists_head (h : Reads r p a q) :
    ∃ b m, (r.read p).head? = some (b, m) ∧ Reads r p b m := by
  cases hread : r.read p with
  | nil => exact absurd h (read_eq_nil_iff.1 hread a q)
  | cons e es =>
    refine ⟨e.1, e.2, rfl, ?_⟩
    rw [Reads, hread]
    exact List.mem_cons_self

/-- What can be read at the beginning of a text is read there, in one way or another. -/
theorem atStart_of_reads {s : String} (h : Reads r ⟨[], s.toList⟩ a q) :
    ∃ b m, atStart r s = some b ∧ Reads r ⟨[], s.toList⟩ b m := by
  obtain ⟨b, m, hhead, hread⟩ := exists_head h
  refine ⟨b, m, ?_, hread⟩
  rw [atStart, hhead]
  rfl

theorem searchFrom_eq_none_iff {before after : List Char} : searchFrom r before after = none ↔
    ∀ cs q, Place.Spells ⟨before, after⟩ cs q → r.read q = [] := by
  induction after generalizing before with
  | nil =>
    rw [searchFrom, List.head?_eq_none_iff]
    constructor
    · intro h cs q hspells
      rw [(Place.spells_at_end.1 hspells).2]
      exact h
    · intro h
      exact h [] _ (Place.spells_nil.2 rfl)
  | cons c rest ih =>
    have hstep : searchFrom r before (c :: rest) = none ↔
        r.read ⟨before, c :: rest⟩ = [] ∧ searchFrom r (c :: before) rest = none := by
      rw [searchFrom]
      split <;> simp_all
    rw [hstep, ih]
    constructor
    · rintro ⟨hhere, hlater⟩ cs q hspells
      obtain ⟨-, rfl⟩ | ⟨ds, -, h⟩ := Place.spells_cases.1 hspells
      · exact hhere
      · exact hlater ds q h
    · intro h
      exact ⟨h [] _ (Place.spells_nil.2 rfl),
        fun cs q hspells => h (c :: cs) q (Place.spells_cons.2 hspells)⟩

theorem occurs_iff {s : String} : occurs r s = true ↔
    ∃ before after a q, s.toList = before ++ after ∧ Reads r ⟨before.reverse, after⟩ a q := by
  have hnone : occurs r s = false ↔ searchFrom r [] s.toList = none := by
    rw [occurs, search, Option.isSome_map, Option.isSome_eq_false_iff, Option.isNone_iff_eq_none]
  constructor
  · intro h
    by_contra hnot
    rw [hnone.2] at h
    · cases h
    · refine searchFrom_eq_none_iff.2 fun cs p hspells => ?_
      rw [read_eq_nil_iff]
      intro a q hread
      have hbefore : p.before = cs.reverse := hspells.before.trans (List.append_nil _)
      apply hnot ⟨cs, p.after, a, q, hspells.after, ?_⟩
      rwa [← hbefore]
  · rintro ⟨before, after, a, q, hsplit, hread⟩
    rw [← Bool.not_eq_false, hnone, searchFrom_eq_none_iff]
    intro hvain
    have hspells : Place.Spells ⟨[], s.toList⟩ before ⟨before.reverse, after⟩ :=
      ⟨hsplit, (List.append_nil _).symm⟩
    rw [Reads, hvain before _ hspells] at hread
    cases hread

/-- A search finds the preferred reading at the first place that has any. -/
theorem searchFrom_eq_some {before after cs : List Char} {e : α × Place}
    (hspells : Place.Spells ⟨before, after⟩ cs p) (hread : (r.read p).head? = some e)
    (hfirst : ∀ ds q, Place.Spells ⟨before, after⟩ ds q → ds.length < cs.length → r.read q = []) :
    searchFrom r before after = some e := by
  induction cs generalizing before after with
  | nil =>
    obtain rfl := Place.spells_nil.1 hspells
    cases after with
    | nil => exact hread
    | cons c rest =>
      rw [searchFrom]
      cases hr : r.read ⟨before, c :: rest⟩ with
      | nil => simp [hr] at hread
      | cons e' es => simpa [hr] using hread
  | cons c cs ih =>
    obtain rfl : after = c :: (cs ++ p.after) := hspells.after
    have hhere : r.read ⟨before, c :: (cs ++ p.after)⟩ = [] :=
      hfirst [] _ (Place.spells_nil.2 rfl) (Nat.zero_lt_succ _)
    rw [searchFrom, hhere]
    apply ih (Place.spells_cons.1 hspells)
    intro ds q hds hlength
    exact hfirst (c :: ds) q (Place.spells_cons.2 hds) (Nat.succ_lt_succ hlength)

end Recognizer

end PluginAudit.Text
