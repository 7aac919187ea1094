import PluginAudit.Template
import Mathlib.Data.List.TakeWhile

namespace PluginAudit.Template

/-- A part of a template: a character that stands for itself, or a field. -/
inductive Part where
  | letter (c : Char)
  | field (name : List Char)

/-- A small letter or an underscore. -/
def isPlainChar (c : Char) : Bool :=
  c.isLower || c == '_'

namespace Part

def written : Part → List Char
  | letter c => [c]
  | field name => '\x7b' :: (name ++ ['\x7d'])

/-- No brace stands for itself, and there is nothing but a name in a field. -/
def isSimple : Part → Bool
  | letter c => c != '\x7b' && c != '\x7d'
  | field name => !name.isEmpty && name.all isPlainChar

/-- What stands for a part in a filled template, unless it is a field without a value. -/
def shown (record : Table Value) : Part → Option (List Char)
  | letter c => some [c]
  | field name => (record.find? (String.ofList name)).map fun v => v.asText.toList

end Part

/-- A template as it is written. -/
def spelling (parts : List Part) : List Char :=
  parts.flatMap Part.written

/-- The parts of a template, of which `name` is what has been read of a field. -/
def partsFrom : Option (List Char) → List Char → List Part
  | _, [] => []
  | none, c :: rest =>
    if c == '\x7b' then partsFrom (some []) rest else .letter c :: partsFrom none rest
  | some name, c :: rest =>
    if c == '\x7d' then .field name.reverse :: partsFrom none rest
    else partsFrom (some (c :: name)) rest

/-- Whether a template is the spelling of simple parts. -/
def isSimple (cs : List Char) : Bool :=
  (partsFrom none cs).all Part.isSimple && spelling (partsFrom none cs) == cs

variable {record : Table Value} {name rest acc : List Char} {parts : List Part}

theorem isPlainChar_bounds {c : Char} (h : isPlainChar c = true) :
    95 ≤ c.toNat ∧ c.toNat ≤ 122 := by
  rw [isPlainChar, Bool.or_eq_true] at h
  rcases h with h | h
  · obtain ⟨low, high⟩ := Bool.and_eq_true_iff.1 h
    have low : 97 ≤ c.toNat := of_decide_eq_true low
    have high : c.toNat ≤ 122 := of_decide_eq_true high
    omega
  · rw [beq_iff_eq.1 h]
    decide

/-- No plain character ends a name or leads on from it. -/
theorem ne_of_isPlainChar {c d : Char} (h : isPlainChar c = true)
    (hd : d ∈ ['\x7b', '\x7d', ':', '!', '[', '.']) : c ≠ d := by
  have none : (['\x7b', '\x7d', ':', '!', '[', '.'].any isPlainChar) = false := by decide
  rintro rfl
  exact absurd h (List.any_eq_false.1 none c hd)

theorem readName_append (plain : ∀ c ∈ name, isPlainChar c = true) :
    readName false acc (name ++ '\x7d' :: rest) = some (acc.reverse ++ name, '\x7d', rest) := by
  induction name generalizing acc with
  | nil => simp [readName]
  | cons c name ih =>
    obtain ⟨hc, hname⟩ := List.forall_mem_cons.1 plain
    have apart {d : Char} (hd : d ∈ ['\x7b', '\x7d', ':', '!', '[', '.']) : (c == d) = false :=
      beq_eq_false_iff_ne.2 (ne_of_isPlainChar hc hd)
    rw [List.cons_append, readName, apart (d := '\x7b') (by simp), apart (d := '\x7d') (by simp),
      apart (d := ':') (by simp), apart (d := '!') (by simp), apart (d := '[') (by simp)]
    simp [ih hname]

theorem nextPiece_letter {c : Char} (h : (Part.letter c).isSimple = true) :
    nextPiece c rest = some (.literal c, rest) := by
  obtain ⟨hopen, hclose⟩ : c ≠ '\x7b' ∧ c ≠ '\x7d' := by simpa [Part.isSimple] using h
  simp [nextPiece, hopen, hclose]

theorem nextPiece_field (h : (Part.field name).isSimple = true) :
    nextPiece '\x7b' (name ++ '\x7d' :: rest) = some (.field ⟨name, none, []⟩, rest) := by
  obtain ⟨hne, plain⟩ : name ≠ [] ∧ ∀ c ∈ name, isPlainChar c = true := by
    simpa [Part.isSimple] using h
  have read : readField (name ++ '\x7d' :: rest) = some (⟨name, none, []⟩, rest) := by
    simp [readField, readName_append plain]
  -- The brace is not doubled: a plain character follows it.
  have single {d : Char} (hd : d ∈ ['\x7b', '\x7d', ':', '!', '[', '.']) (cs : List Char) :
      name ++ '\x7d' :: rest ≠ d :: cs := by
    obtain ⟨c, name, rfl⟩ := List.exists_cons_of_ne_nil hne
    intro heq
    exact ne_of_isPlainChar (plain c List.mem_cons_self) hd (List.cons.inj heq).1
  rw [nextPiece, if_pos (beq_self_eq_true _), read, Option.map_some]
  · exact single (by simp)
  · exact single (by simp)

theorem index?_eq_none (h : (Part.field name).isSimple = true) : index? name = none := by
  obtain ⟨hne, plain⟩ : name ≠ [] ∧ ∀ c ∈ name, isPlainChar c = true := by
    simpa [Part.isSimple] using h
  obtain ⟨c, name, rfl⟩ := List.exists_cons_of_ne_nil hne
  obtain ⟨hlow, hhigh⟩ := isPlainChar_bounds (plain c List.mem_cons_self)
  have noDigit : Text.digitValue? c = none := by
    have ascii : c.toNat < 128 := by omega
    have other : c.isDigit = false := by
      simp [Char.isDigit, UInt32.le_iff_toNat_le]
      omega
    rw [Text.digitValue?, if_pos ascii, other]
    rfl
  rw [index?, Layout.takeNumber, noDigit]

theorem value_field (h : (Part.field name).isSimple = true) :
    Field.value ⟨name, none, []⟩ record =
      match record.find? (String.ofList name) with
      | some v => .ok v
      | none => .error .unfilled := by
  obtain ⟨hne, plain⟩ : name ≠ [] ∧ ∀ c ∈ name, isPlainChar c = true := by
    simpa [Part.isSimple] using h
  have whole : name.takeWhile (fun c => c != '.' && c != '[') = name := by
    apply List.takeWhile_eq_self_iff.2
    intro c hc
    simp [ne_of_isPlainChar (plain c hc)]
  have named : (name.isEmpty || (index? name).isSome) = false := by
    simp [hne, index?_eq_none h]
  rw [Field.value]
  dsimp only
  rw [whole, List.drop_length, named]
  cases record.find? (String.ofList name) <;> simp [follow]

/-- A simple template is filled with the values of its fields, unless one has none. -/
theorem fillFrom_spelling (simple : ∀ p ∈ parts, p.isSimple = true) {fuel : Nat} (nested : Nat)
    (hfuel : (spelling parts).length < fuel) :
    fillFrom record fuel nested (spelling parts) acc =
      match parts.mapM (Part.shown record) with
      | some texts => .ok (String.ofList (acc.reverse ++ texts.flatten))
      | none => .error .unfilled := by
  -- Each part takes a character of the template at least, so the fuel lasts.
  induction parts generalizing fuel acc with
  | nil =>
    cases fuel with
    | zero => cases hfuel
    | succ fuel => simp [spelling, fillFrom]
  | cons p parts ih =>
    obtain ⟨hp, hparts⟩ := List.forall_mem_cons.1 simple
    cases fuel with
    | zero => cases hfuel
    | succ fuel =>
      cases p with
      | letter c =>
        have spelled : spelling (.letter c :: parts) = c :: spelling parts := rfl
        rw [spelled, List.length_cons] at hfuel
        rw [spelled, fillFrom, nextPiece_letter hp]
        dsimp only
        rw [ih hparts (by omega), List.mapM_cons]
        cases parts.mapM (Part.shown record) <;> simp [Part.shown]
      | field name =>
        have spelled : spelling (.field name :: parts) =
            '\x7b' :: (name ++ '\x7d' :: spelling parts) := by
          simp [spelling, Part.written]
        rw [spelled] at hfuel ⊢
        rw [fillFrom, nextPiece_field hp]
        dsimp only
        rw [value_field hp, List.mapM_cons, Part.shown]
        cases record.find? (String.ofList name) with
        | none => rfl
        | some v =>
          have left : (spelling parts).length < fuel := by
            simp only [List.length_cons, List.length_append] at hfuel
            omega
          change fillFrom record fuel nested (spelling parts) (v.asText.toList.reverse ++ acc) = _
          rw [ih hparts left]
          cases parts.mapM (Part.shown record) <;> simp

theorem fill_spelling (simple : ∀ p ∈ parts, p.isSimple = true) {template : String}
    (written : template.toList = spelling parts) :
    fill template record =
      match parts.mapM (Part.shown record) with
      | some texts => .ok (String.ofList texts.flatten)
      | none => .error .unfilled := by
  rw [fill, written]
  exact fillFrom_spelling simple 1 (Nat.lt_succ_self _)

theorem exists_of_mapM_eq_none {α β : Type} {f : α → Option β} {xs : List α}
    (h : xs.mapM f = none) : ∃ x ∈ xs, f x = none := by
  induction xs with
  | nil => cases h
  | cons x xs ih =>
    cases hx : f x with
    | none => exact ⟨x, List.mem_cons_self, hx⟩
    | some y =>
      rw [List.mapM_cons, hx] at h
      cases hxs : xs.mapM f with
      | none =>
        obtain ⟨x', hx', hnone⟩ := ih hxs
        exact ⟨x', List.mem_cons_of_mem _ hx', hnone⟩
      | some ys =>
        rw [hxs] at h
        cases h

/-- Only fields have no value, and they are written with a brace. -/
theorem shown_ne_none {p : Part} (hp : p ∈ parts) (noField : '\x7b' ∉ spelling parts) :
    p.shown record ≠ none := by
  cases p with
  | letter c => simp [Part.shown]
  | field name =>
    have brace : '\x7b' ∈ spelling parts := List.mem_flatMap.2 ⟨_, hp, List.mem_cons_self⟩
    exact absurd brace noField

theorem exists_parts {cs : List Char} (h : isSimple cs = true) :
    ∃ parts, (∀ p ∈ parts, p.isSimple = true) ∧ cs = spelling parts := by
  rw [isSimple, Bool.and_eq_true, List.all_eq_true, beq_iff_eq] at h
  exact ⟨partsFrom none cs, h.1, h.2.symm⟩

end PluginAudit.Template
