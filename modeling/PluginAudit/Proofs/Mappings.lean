import PluginAudit.Value

namespace PluginAudit

namespace Value

@[simp] theorem same_text (v : Value) (s : String) : v.same (.text s) = true ↔ v = .text s := by
  cases v <;> simp [same, same.sameAsNumber, number?]

@[simp] theorem text_same (s : String) (v : Value) :
    (Value.text s).same v = true ↔ v = .text s := by
  cases v with
  | text t => simpa [same] using eq_comm
  | _ => simp [same]

theorem lookup_cons (key : String) (k v : Value) (rest : List (Value × Value)) :
    lookup key ((k, v) :: rest) = if k.same (.text key) then some v else lookup key rest := by
  cases k with
  | text k => simp [lookup, same]
  | _ => simp [lookup, same, same.sameAsNumber, number?]

theorem mem_of_lookup {key : String} {entries : List (Value × Value)} {v : Value}
    (h : lookup key entries = some v) : (.text key, v) ∈ entries := by
  induction entries with
  | nil => cases h
  | cons e rest ih =>
    rw [lookup_cons] at h
    split at h
    case isTrue hk =>
      cases h
      rw [← (same_text _ _).1 hk]
      exact List.mem_cons_self
    case isFalse => exact List.mem_cons_of_mem _ (ih h)

theorem find?_same_text (key : String) (entries : List (Value × Value)) :
    (entries.find? fun e => e.1.same (.text key)).map Prod.snd = lookup key entries := by
  induction entries with
  | nil => rfl
  | cons e rest ih =>
    rw [lookup_cons, List.find?_cons]
    split <;> simp_all

theorem lookup_append (key : String) (xs ys : List (Value × Value)) :
    lookup key (xs ++ ys) = (lookup key xs).or (lookup key ys) := by
  simp only [← find?_same_text, List.find?_append, Option.map_or]

theorem lookup_insert_text (key : String) (entries : List (Value × Value)) (v : Value) :
    lookup key (insert entries (.text key) v) = some v := by
  unfold insert
  split
  case isTrue h =>
    induction entries with
    | nil => cases h
    | cons e rest ih =>
      rw [List.map_cons]
      by_cases he : e.1.same (.text key)
      · rw [if_pos he, lookup_cons, if_pos he]
      · rw [if_neg he, lookup_cons, if_neg he]
        exact ih (by simpa [he] using h)
  case isFalse h =>
    have absent : lookup key entries = none := by
      rw [← find?_same_text, Option.map_eq_none_iff, List.find?_eq_none]
      exact fun e he hsame => h (List.any_eq_true.2 ⟨e, he, hsame⟩)
    simp [lookup_append, absent, lookup]

theorem lookup_insert_of_ne {key : String} {k : Value} (hk : k ≠ .text key)
    (entries : List (Value × Value)) (v : Value) :
    lookup key (insert entries k v) = lookup key entries := by
  unfold insert
  split
  case isTrue h =>
    clear h
    induction entries with
    | nil => rfl
    | cons e rest ih =>
      rw [List.map_cons, lookup_cons]
      split
      case isTrue he =>
        have other : ¬ e.1.same (.text key) = true := by
          intro hkey
          rw [(same_text _ _).1 hkey] at he
          exact hk ((text_same _ _).1 he)
        rw [lookup_cons, if_neg other, if_neg other, ih]
      case isFalse => rw [lookup_cons, ih]
  case isFalse =>
    have other : ¬ k.same (.text key) = true := by simpa using hk
    simp [lookup_append, lookup_cons, other, lookup]

theorem mem_insert {key : String} {entries : List (Value × Value)} {k v w : Value}
    (h : (.text key, w) ∈ insert entries k v) :
    (.text key, w) ∈ entries ∨ k = .text key ∧ w = v := by
  unfold insert at h
  split at h
  case isTrue =>
    obtain ⟨e, he, heq⟩ := List.mem_map.1 h
    split at heq
    case isTrue hsame =>
      obtain ⟨hkey, rfl⟩ := Prod.mk.inj heq
      rw [hkey, text_same] at hsame
      exact .inr ⟨hsame, rfl⟩
    case isFalse => exact .inl (heq ▸ he)
  case isFalse =>
    obtain hmem | hnew := List.mem_append.1 h
    · exact .inl hmem
    · obtain ⟨rfl, rfl⟩ := Prod.mk.inj (List.mem_singleton.1 hnew)
      exact .inr ⟨rfl, rfl⟩

end Value

end PluginAudit
