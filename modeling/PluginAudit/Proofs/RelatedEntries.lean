import PluginAudit.Table
import Mathlib.Data.List.Forall2

namespace PluginAudit

section Related

variable {α β γ δ : Type} {R : α → β → Prop} {S : γ → δ → Prop}

theorem rel_find? {p : α → Bool} {q : β → Bool} {xs : List α} {ys : List β}
    (hpq : ∀ x y, R x y → p x = q y) (h : List.Forall₂ R xs ys) :
    Option.Rel R (xs.find? p) (ys.find? q) := by
  induction h with
  | nil => exact .none
  | @cons x y xs ys hxy _ ih =>
    rw [List.find?_cons, List.find?_cons, hpq x y hxy]
    cases q y with
    | true => exact .some hxy
    | false => exact ih

theorem rel_head? {xs : List α} {ys : List β} (h : List.Forall₂ R xs ys) :
    Option.Rel R xs.head? ys.head? := by
  cases h with
  | nil => exact .none
  | cons hxy _ => exact .some hxy

theorem rel_getLast? {xs : List α} {ys : List β} (h : List.Forall₂ R xs ys) :
    Option.Rel R xs.getLast? ys.getLast? := by
  induction h with
  | nil => exact .none
  | cons hxy htail ih =>
    cases htail with
    | nil => exact .some hxy
    | cons => simpa [List.getLast?_cons_cons] using ih

theorem any_eq_of_forall₂ {p : α → Bool} {q : β → Bool} {xs : List α} {ys : List β}
    (hpq : ∀ x y, R x y → p x = q y) (h : List.Forall₂ R xs ys) : xs.any p = ys.any q := by
  induction h with
  | nil => rfl
  | @cons x y xs ys hxy _ ih => rw [List.any_cons, List.any_cons, hpq x y hxy, ih]

theorem all_eq_of_forall₂ {p : α → Bool} {q : β → Bool} {xs : List α} {ys : List β}
    (hpq : ∀ x y, R x y → p x = q y) (h : List.Forall₂ R xs ys) : xs.all p = ys.all q := by
  induction h with
  | nil => rfl
  | @cons x y xs ys hxy _ ih => rw [List.all_cons, List.all_cons, hpq x y hxy, ih]

theorem map_eq_of_forall₂ {f : α → γ} {g : β → γ} {xs : List α} {ys : List β}
    (hfg : ∀ x y, R x y → f x = g y) (h : List.Forall₂ R xs ys) : xs.map f = ys.map g := by
  induction h with
  | nil => rfl
  | @cons x y xs ys hxy _ ih => rw [List.map_cons, List.map_cons, hfg x y hxy, ih]

theorem filterMap_eq_of_forall₂ {f : α → Option γ} {g : β → Option γ} {xs : List α} {ys : List β}
    (hfg : ∀ x y, R x y → f x = g y) (h : List.Forall₂ R xs ys) :
    xs.filterMap f = ys.filterMap g := by
  induction h with
  | nil => rfl
  | @cons x y xs ys hxy _ ih => rw [List.filterMap_cons, List.filterMap_cons, hfg x y hxy, ih]

theorem findSome?_eq_of_forall₂ {f : α → Option γ} {g : β → Option γ} {xs : List α} {ys : List β}
    (hfg : ∀ x y, R x y → f x = g y) (h : List.Forall₂ R xs ys) :
    xs.findSome? f = ys.findSome? g := by
  induction h with
  | nil => rfl
  | @cons x y xs ys hxy _ ih => rw [List.findSome?_cons, List.findSome?_cons, hfg x y hxy, ih]

theorem rel_cases {x : Option α} {y : Option β} (h : Option.Rel R x y) :
    x = none ∧ y = none ∨ ∃ a b, x = some a ∧ y = some b ∧ R a b := by
  cases h with
  | none => exact .inl ⟨rfl, rfl⟩
  | some hab => exact .inr ⟨_, _, rfl, rfl, hab⟩

theorem rel_map {f : α → γ} {g : β → δ} {x : Option α} {y : Option β} (h : Option.Rel R x y)
    (hfg : ∀ a b, x = some a → R a b → S (f a) (g b)) : Option.Rel S (x.map f) (y.map g) := by
  cases h with
  | none => exact .none
  | some hab => exact .some (hfg _ _ rfl hab)

theorem map_eq_of_rel {f : α → γ} {g : β → γ} {x : Option α} {y : Option β} (h : Option.Rel R x y)
    (hfg : ∀ a b, x = some a → R a b → f a = g b) : x.map f = y.map g := by
  cases h with
  | none => rfl
  | some hab => rw [Option.map_some, Option.map_some, hfg _ _ rfl hab]

theorem bind_eq_of_rel {f : α → Option γ} {g : β → Option γ} {x : Option α} {y : Option β}
    (h : Option.Rel R x y) (hfg : ∀ a b, R a b → f a = g b) : x.bind f = y.bind g := by
  cases h with
  | none => rfl
  | some hab => rw [Option.bind_some, Option.bind_some, hfg _ _ hab]

theorem rel_imp {x : Option α} {y : Option β} {T : α → β → Prop} (h : Option.Rel R x y)
    (himp : ∀ a b, x = some a → R a b → T a b) : Option.Rel T x y := by
  cases h with
  | none => exact .none
  | some hab => exact .some (himp _ _ rfl hab)

theorem rel_getD {x : Option α} {y : Option β} (h : Option.Rel R x y) {d : α} {d' : β}
    (hd : R d d') : R (x.getD d) (y.getD d') := by
  cases h with
  | none => exact hd
  | some hab => exact hab

theorem rel_flatMap {f : α → List γ} {g : β → List δ} {xs : List α} {ys : List β}
    (h : List.Forall₂ R xs ys) (hfg : ∀ x ∈ xs, ∀ y, R x y → List.Forall₂ S (f x) (g y)) :
    List.Forall₂ S (xs.flatMap f) (ys.flatMap g) := by
  induction h with
  | nil => exact .nil
  | @cons x y xs ys hxy _ ih =>
    rw [List.flatMap_cons, List.flatMap_cons]
    exact List.rel_append (hfg x List.mem_cons_self y hxy)
      (ih fun z hz => hfg z (List.mem_cons_of_mem x hz))

theorem rel_filter {p : α → Bool} {q : β → Bool} {xs : List α} {ys : List β}
    (hpq : ∀ x y, R x y → p x = q y) (h : List.Forall₂ R xs ys) :
    List.Forall₂ R (xs.filter p) (ys.filter q) :=
  List.rel_filter (fun x y hxy => by simp [hpq x y hxy]) h

end Related

namespace Table

variable {α : Type} {R : α → α → Prop} {t t' : Table α} {v v' : α}

/-- The same keys in the same order, with related values. -/
def Rel (R : α → α → Prop) (t t' : Table α) : Prop :=
  List.Forall₂ (fun e e' => e.1 = e'.1 ∧ R e.2 e'.2) t t'

theorem Rel.refl (hR : ∀ v, R v v) (t : Table α) : Rel R t t :=
  List.forall₂_same.2 fun _ _ => ⟨rfl, hR _⟩

theorem Rel.find? (h : Rel R t t') (key : String) : Option.Rel R (t.find? key) (t'.find? key) := by
  induction h with
  | nil => exact .none
  | @cons e e' _ _ he _ ih =>
    rw [Table.find?, Table.find?, ← he.1]
    split
    case isTrue => exact .some he.2
    case isFalse => exact ih

theorem Rel.has (h : Rel R t t') (key : String) : t.has key = t'.has key := by
  have hfind := h.find? key
  rw [Table.has, Table.has]
  generalize t.find? key = found at hfind ⊢
  generalize t'.find? key = found' at hfind ⊢
  cases hfind <;> rfl

theorem Rel.put (h : Rel R t t') (hv : R v v') (key : String) :
    Rel R (t.put key v) (t'.put key v') := by
  induction h with
  | nil => exact .cons ⟨rfl, hv⟩ .nil
  | @cons e e' _ _ he htail ih =>
    rw [Table.put, Table.put, ← he.1]
    split
    case isTrue => exact .cons ⟨rfl, hv⟩ htail
    case isFalse => exact .cons ⟨rfl, he.2⟩ ih

theorem Rel.putNew (h : Rel R t t') (hv : R v v') (key : String) :
    Rel R (t.putNew key v) (t'.putNew key v') := by
  rw [Table.putNew, Table.putNew, ← h.has]
  split
  case isTrue => exact h
  case isFalse => exact h.put hv key

end Table

end PluginAudit
