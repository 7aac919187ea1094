import Mathlib.Data.List.Find
import Mathlib.Data.List.Forall2
import PluginAudit.Proofs.Mappings
import PluginAudit.Yaml.Reader

namespace PluginAudit

namespace Value

section Keys

variable {k l : Value}

theorem eq_of_sameNumber {m n : Int ⊕ Binary64} (h : sameNumber m n = true) : m = n := by
  cases m <;> cases n <;> simp_all [sameNumber]

theorem same_of_number? {n : Int ⊕ Binary64} (hk : k.number? = some n) (w : Value) :
    k.same w = same.sameAsNumber n w := by
  cases k <;> simp_all [number?, same]

theorem isKey_cases (hk : Yaml.isKey k = true) :
    k = .null ∨ (∃ s, k = .text s) ∨ ∃ n, k.number? = some n := by
  cases k <;> simp_all [Yaml.isKey, number?]

/-- A plain value that equals another equals itself, and whatever the other equals. -/
theorem same_left (hk : Yaml.isKey k = true) (h : k.same l = true) :
    k.same k = true ∧ ∀ w, k.same w = l.same w := by
  obtain rfl | ⟨s, rfl⟩ | ⟨n, hn⟩ := isKey_cases hk
  · obtain rfl : l = .null := by cases l <;> simp_all [same]
    exact ⟨h, fun _ => rfl⟩
  · obtain rfl := (text_same s l).1 h
    exact ⟨h, fun _ => rfl⟩
  · rw [same_of_number? hn, same.sameAsNumber] at h
    cases hl : l.number? with
    | none => simp [hl] at h
    | some m =>
      simp only [hl] at h
      cases eq_of_sameNumber h
      refine ⟨?_, fun w => by rw [same_of_number? hn, same_of_number? hl]⟩
      rw [same_of_number? hn, same.sameAsNumber]
      simpa only [hn] using h

theorem same_symm (hk : Yaml.isKey k = true) (h : k.same l = true) : l.same k = true := by
  obtain ⟨hself, hleft⟩ := same_left hk h
  rw [← hleft]
  exact hself

theorem same_comm (hk : Yaml.isKey k = true) (hl : Yaml.isKey l = true) : k.same l = l.same k :=
  Bool.eq_iff_iff.2 ⟨same_symm hk, same_symm hl⟩

/-- What equals a plain value equals whatever that one equals. -/
theorem same_right {m : Value} (hm : Yaml.isKey m = true) (hk : Yaml.isKey k = true)
    (h : k.same l = true) : m.same k = m.same l := by
  rw [Bool.eq_iff_iff]
  constructor
  · intro hmk
    rw [(same_left hm hmk).2]
    exact h
  · intro hml
    rw [(same_left hm hml).2]
    exact same_symm hk h

end Keys

/-- The entries of a mapping: no key is a collection, each equals itself, and no two are equal. -/
structure Keyed (entries : List (Value × Value)) : Prop where
  isKey : ∀ e ∈ entries, Yaml.isKey e.1 = true
  equalsItself : ∀ e ∈ entries, e.1.same e.1 = true
  distinct : entries.Pairwise fun d e => ¬ d.1.same e.1 = true

/-- What a mapping has under a key. -/
def under? (key : Value) (entries : List (Value × Value)) : Option Value :=
  (entries.find? fun e => e.1.same key).map Prod.snd

section Entries

variable {k v : Value} {e : Value × Value} {entries rest : List (Value × Value)}

theorem Keyed.nil : Keyed [] :=
  ⟨by simp, by simp, .nil⟩

theorem Keyed.tail (h : Keyed (e :: rest)) : Keyed rest :=
  ⟨fun d hd => h.isKey d (List.mem_cons_of_mem e hd),
    fun d hd => h.equalsItself d (List.mem_cons_of_mem e hd), (List.pairwise_cons.1 h.distinct).2⟩

theorem Keyed.head (h : Keyed (e :: rest)) : Keyed [e] :=
  ⟨by simpa using h.isKey e List.mem_cons_self, by simpa using h.equalsItself e List.mem_cons_self,
    List.pairwise_singleton _ e⟩

theorem Keyed.not_same (h : Keyed (e :: rest)) {d : Value × Value} (hd : d ∈ rest) :
    ¬ e.1.same d.1 = true :=
  (List.pairwise_cons.1 h.distinct).1 d hd

theorem under?_cons (key : Value) (e : Value × Value) (rest : List (Value × Value)) :
    under? key (e :: rest) = if e.1.same key then some e.2 else under? key rest := by
  rw [under?, List.find?_cons]
  split <;> simp_all [under?]

theorem under?_append (key : Value) (xs ys : List (Value × Value)) :
    under? key (xs ++ ys) = (under? key xs).or (under? key ys) := by
  simp only [under?, List.find?_append, Option.map_or]

theorem under?_eq_none_iff : under? k entries = none ↔ ∀ e ∈ entries, ¬ e.1.same k = true := by
  rw [under?, Option.map_eq_none_iff, List.find?_eq_none]

theorem exists_of_under? (h : under? k entries = some v) :
    ∃ e ∈ entries, e.1.same k = true ∧ e.2 = v := by
  obtain ⟨e, he, rfl⟩ := Option.map_eq_some_iff.1 h
  have hsame := List.find?_some he
  exact ⟨e, List.mem_of_find?_eq_some he, hsame, rfl⟩

theorem Keyed.find?_of_mem (h : Keyed entries) (he : e ∈ entries) (hk : e.1.same k = true) :
    entries.find? (fun e => e.1.same k) = some e := by
  induction entries with
  | nil => cases he
  | cons d rest ih =>
    rw [List.find?_cons]
    obtain rfl | he := List.mem_cons.1 he
    · rw [hk]
    · have hd := h.isKey d List.mem_cons_self
      have hkey := h.isKey e (List.mem_cons_of_mem d he)
      have apart : d.1.same k = false := by
        rw [Bool.eq_false_iff]
        intro hsame
        refine h.not_same he ?_
        rw [(same_left hd hsame).2]
        exact same_symm hkey hk
      rw [apart]
      exact ih h.tail he

theorem Keyed.under?_of_mem (h : Keyed entries) (he : e ∈ entries) (hk : e.1.same k = true) :
    under? k entries = some e.2 := by
  rw [under?, h.find?_of_mem he hk, Option.map_some]

theorem Keyed.under?_congr {l : Value} (h : Keyed entries) (hk : Yaml.isKey k = true)
    (hl : k.same l = true) : under? k entries = under? l entries := by
  rw [under?, under?, List.find?_congr fun e he => same_right (h.isKey e he) hk hl]

theorem Keyed.find?_comm (h : Keyed entries) (hk : Yaml.isKey k = true) :
    entries.find? (fun e => k.same e.1) = entries.find? fun e => e.1.same k :=
  List.find?_congr fun e he => same_comm hk (h.isKey e he)

end Entries

/-- Mappings have proper keys, and no number is NaN, at every depth. -/
inductive Proper : Value → Prop
  | null : Proper .null
  | bool (b : Bool) : Proper (.bool b)
  | int (n : Int) : Proper (.int n)
  | float {x : Binary64} : x.isNaN = false → Proper (.float x)
  | text (s : String) : Proper (.text s)
  | list {items : List Value} : (∀ v ∈ items, Proper v) → Proper (.list items)
  | map {entries : List (Value × Value)} :
    Keyed entries → (∀ e ∈ entries, Proper e.2) → Proper (.map entries)

section Equality

theorem sameItems_iff {xs ys : List Value} :
    sameItems xs ys = true ↔ List.Forall₂ (fun x y => x.same y = true) xs ys := by
  induction xs generalizing ys with
  | nil => cases ys <;> simp [sameItems]
  | cons x xs ih => cases ys <;> simp [sameItems, ih]

theorem coveredBy_iff {xs ys : List (Value × Value)} :
    coveredBy xs ys = true ↔ ∀ d ∈ xs, ∃ e,
      ys.find? (fun e => d.1.same e.1) = some e ∧ d.2.same e.2 = true := by
  induction xs with
  | nil => simp [coveredBy]
  | cons d xs ih =>
    rw [coveredBy, Bool.and_eq_true, ih, List.forall_mem_cons]
    cases ys.find? (fun e => d.1.same e.1) <;> simp

theorem Proper.same_self {v : Value} (h : v.Proper) : v.same v = true := by
  induction h with
  | null => rfl
  | bool b => cases b <;> rfl
  | int n => simp [same, same.sameAsNumber, number?, sameNumber]
  | float hx =>
    simp only [same, same.sameAsNumber, number?]
    split <;> simp [sameNumber, hx]
  | text s => simp
  | list _ ih =>
    rw [same, sameItems_iff, List.forall₂_same]
    exact ih
  | @map entries keyed _ ih =>
    rw [same, Bool.and_eq_true, coveredBy_iff]
    refine ⟨beq_self_eq_true _, fun d hd => ⟨d, ?_, ih d hd⟩⟩
    rw [keyed.find?_comm (keyed.isKey d hd)]
    exact keyed.find?_of_mem hd (keyed.equalsItself d hd)

theorem forall₂_trans {α : Type} {R : α → α → Prop} {xs ys zs : List α}
    (trans : ∀ x ∈ xs, ∀ {y z}, R x y → R y z → R x z) (hxy : List.Forall₂ R xs ys)
    (hyz : List.Forall₂ R ys zs) : List.Forall₂ R xs zs := by
  induction hxy generalizing zs with
  | nil =>
    cases hyz
    exact .nil
  | cons h _ ih =>
    obtain _ | ⟨h', hrest⟩ := hyz
    exact .cons (trans _ List.mem_cons_self h h')
      (ih (fun x hx => trans x (List.mem_cons_of_mem _ hx)) hrest)

theorem Proper.same_trans {x y z : Value} (h : x.Proper) (hxy : x.same y = true)
    (hyz : y.same z = true) : x.same z = true := by
  induction h generalizing y z with
  | list _ ih =>
    cases y <;> simp only [same, Bool.false_eq_true] at hxy
    cases z <;> simp only [same, Bool.false_eq_true] at hyz
    rw [sameItems_iff] at hxy hyz
    rw [same, sameItems_iff]
    exact forall₂_trans (fun x hx _ _ => ih x hx) hxy hyz
  | map keyed _ ih =>
    cases y <;> simp only [same, Bool.false_eq_true] at hxy
    cases z <;> simp only [same, Bool.false_eq_true] at hyz
    rw [Bool.and_eq_true, coveredBy_iff, beq_iff_eq] at hxy hyz
    rw [same, Bool.and_eq_true, coveredBy_iff, beq_iff_eq]
    refine ⟨hxy.1.trans hyz.1, fun d hd => ?_⟩
    obtain ⟨e, he, hvalue⟩ := hxy.2 d hd
    obtain ⟨f, hf, hvalue'⟩ := hyz.2 e (List.mem_of_find?_eq_some he)
    have hkey := List.find?_some he
    refine ⟨f, ?_, ih d hd hvalue hvalue'⟩
    simpa only [(same_left (keyed.isKey d hd) hkey).2] using hf
  | _ =>
    rw [(same_left rfl hxy).2]
    exact hyz

end Equality

end Value

end PluginAudit
