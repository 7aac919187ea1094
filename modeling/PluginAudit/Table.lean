namespace PluginAudit

/-- A table with texts as keys; each key stands in it at most once. -/
abbrev Table (α : Type) := List (String × α)

namespace Table

variable {α : Type}

def find? (t : Table α) (key : String) : Option α :=
  match t with
  | [] => none
  | (k, v) :: rest => if k == key then some v else find? rest key

def has (t : Table α) (key : String) : Bool :=
  (t.find? key).isSome

/-- Writes an entry: in place if the key is there, otherwise at the end. -/
def put (t : Table α) (key : String) (value : α) : Table α :=
  match t with
  | [] => [(key, value)]
  | (k, v) :: rest => if k == key then (k, value) :: rest else (k, v) :: put rest key value

/-- Writes an entry unless the key is there. -/
def putNew (t : Table α) (key : String) (value : α) : Table α :=
  if t.has key then t else t.put key value

def erase (t : Table α) (key : String) : Table α :=
  List.filter (fun e => e.1 != key) t

def keys (t : Table α) : List String :=
  List.map Prod.fst t

@[simp] theorem find?_nil (key : String) : find? ([] : Table α) key = none := rfl

theorem find?_put_self (t : Table α) (key : String) (value : α) :
    (t.put key value).find? key = some value := by
  induction t with
  | nil => simp [put, find?]
  | cons e rest ih =>
    by_cases h : e.1 == key
    · simp [put, find?, h]
    · simp [put, find?, h, ih]

theorem find?_put_of_ne (t : Table α) (key other : String) (value : α) (h : key ≠ other) :
    (t.put key value).find? other = t.find? other := by
  induction t with
  | nil => simp [put, find?, h]
  | cons e rest ih =>
    by_cases hk : e.1 == key
    · have : e.1 ≠ other := by rw [beq_iff_eq] at hk; exact hk ▸ h
      simp [put, find?, hk, this]
    · simp [put, find?, hk, ih]

theorem find?_erase_self (t : Table α) (key : String) : (t.erase key).find? key = none := by
  induction t with
  | nil => rfl
  | cons e rest ih =>
    rw [erase] at ih
    by_cases h : e.1 = key
    · simp [erase, h, ih]
    · simp [erase, find?, h, ih]

theorem find?_erase_of_ne (t : Table α) (key other : String) (h : key ≠ other) :
    (t.erase key).find? other = t.find? other := by
  induction t with
  | nil => rfl
  | cons e rest ih =>
    rw [erase] at ih
    by_cases hk : e.1 = key
    · simp [erase, find?, hk, h, ih]
    · simp [erase, find?, hk, ih]

theorem mem_of_find? {t : Table α} {key : String} {value : α} (h : t.find? key = some value) :
    (key, value) ∈ t := by
  induction t with
  | nil => cases h
  | cons e rest ih =>
    rw [find?] at h
    split at h
    case isTrue hkey =>
      cases h
      rw [← beq_iff_eq.1 hkey]
      exact List.mem_cons_self
    case isFalse => exact List.mem_cons_of_mem e (ih h)

theorem find?_foldl_put {key : String} (entries t : Table α) (h : ∀ e ∈ entries, e.1 ≠ key) :
    (entries.foldl (fun t e => t.put e.1 e.2) t).find? key = t.find? key := by
  induction entries generalizing t with
  | nil => rfl
  | cons e rest ih =>
    obtain ⟨he, hrest⟩ := List.forall_mem_cons.1 h
    rw [List.foldl_cons, ih _ hrest, find?_put_of_ne _ _ _ _ he]

theorem of_mem_put {t : Table α} {key : String} {value : α} {e : String × α}
    (h : e ∈ t.put key value) : e.1 = key ∨ e ∈ t := by
  induction t with
  | nil =>
    obtain rfl := List.mem_singleton.1 h
    exact .inl rfl
  | cons x rest ih =>
    rw [put] at h
    split at h
    case isTrue hkey =>
      obtain rfl | h := List.mem_cons.1 h
      · exact .inl (beq_iff_eq.1 hkey)
      · exact .inr (List.mem_cons_of_mem x h)
    case isFalse =>
      obtain rfl | h := List.mem_cons.1 h
      · exact .inr List.mem_cons_self
      · exact (ih h).imp_right (List.mem_cons_of_mem x)

theorem of_mem_foldl_put (entries : Table α) {t : Table α} {e : String × α}
    (h : e ∈ entries.foldl (fun t x => t.put x.1 x.2) t) :
    (∃ x ∈ entries, e.1 = x.1) ∨ e ∈ t := by
  induction entries generalizing t with
  | nil => exact .inr h
  | cons x rest ih =>
    obtain ⟨y, hy, heq⟩ | h := ih h
    · exact .inl ⟨y, List.mem_cons_of_mem x hy, heq⟩
    · obtain heq | h := of_mem_put h
      · exact .inl ⟨x, List.mem_cons_self, heq⟩
      · exact .inr h

end Table

end PluginAudit
