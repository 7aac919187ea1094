import PluginAudit.Text.Blank
import PluginAudit.Text.Parts
import Mathlib.Data.List.DropRight

namespace PluginAudit.Text

variable {p : Char → Bool} {before cs after : List Char}

theorem dropEndWhile_eq (p : Char → Bool) (cs : List Char) : dropEndWhile p cs = cs.rdropWhile p :=
  rfl

theorem dropEndWhile_append (h : ∀ c ∈ after, p c = true) (cs : List Char) :
    dropEndWhile p (cs ++ after) = dropEndWhile p cs := by
  rw [dropEndWhile, dropEndWhile, List.reverse_append, List.dropWhile_append_of_pos (by simpa using h)]

theorem dropEndWhile_of_last (h : ∀ c ∈ cs.getLast?, p c = false) : dropEndWhile p cs = cs := by
  rw [dropEndWhile_eq, List.rdropWhile_eq_self_iff]
  intro hne
  rw [h _ (List.getLast?_eq_some_getLast hne)]
  exact Bool.false_ne_true

theorem dropWhile_of_head (h : ∀ c ∈ cs.head?, p c = false) : cs.dropWhile p = cs := by
  cases cs with
  | nil => rfl
  | cons c rest => exact List.dropWhile_cons_of_neg (by rw [h c rfl]; exact Bool.false_ne_true)

theorem not_prefix_dropWhile {c : Char} (hc : p c = true) (cs : List Char) :
    ¬ [c] <+: cs.dropWhile p := by
  rintro ⟨tail, htail⟩
  have hhead := List.head?_dropWhile_not p cs
  rw [← htail] at hhead
  exact Bool.false_ne_true (hhead.symm.trans hc)

theorem trimLeft_of_not_prefix {s : String} {c : Char} (h : ¬ [c] <+: s.toList) :
    trimLeft (· == c) s = s := by
  have hhead : ∀ d ∈ s.toList.head?, (d == c) = false := by
    intro d hd
    rw [beq_eq_false_iff_ne]
    rintro rfl
    obtain ⟨rest, hrest⟩ := List.head?_eq_some_iff.1 hd
    exact h ⟨rest, hrest.symm⟩
  rw [trimLeft, dropWhile_of_head hhead, String.ofList_toList]

theorem trimLeft_sublist (p : Char → Bool) (s : String) : (trimLeft p s).toList.Sublist s.toList := by
  rw [trimLeft, String.toList_ofList]
  exact (List.dropWhile_suffix p).sublist

theorem strip_sublist (s : String) : (strip s).toList.Sublist s.toList := by
  rw [strip, trim, String.toList_ofList, dropEndWhile_eq]
  exact (List.rdropWhile_prefix _ _).sublist.trans (List.dropWhile_suffix _).sublist

/-- Trimming takes away what stands around a text, and nothing of the text. -/
theorem trim_between (hbefore : ∀ c ∈ before, p c = true) (hafter : ∀ c ∈ after, p c = true)
    (hhead : ∀ c ∈ cs.head?, p c = false) (hlast : ∀ c ∈ cs.getLast?, p c = false) :
    trim p (String.ofList (before ++ cs ++ after)) = String.ofList cs := by
  rw [trim, String.toList_ofList, List.append_assoc, List.dropWhile_append_of_pos hbefore]
  cases cs with
  | nil =>
    have hnone : after.dropWhile p = [] := List.dropWhile_eq_nil_iff.2 hafter
    rw [List.nil_append, hnone]
    rfl
  | cons c rest =>
    rw [dropWhile_of_head (by simpa using hhead), dropEndWhile_append hafter, dropEndWhile_of_last hlast]

/-- The text starts with something that is not white space. -/
def Opens (cs : List Char) : Prop :=
  ∃ c ∈ cs.head?, isBlank c = false

/-- The text ends with something that is not white space. -/
def Closes (cs : List Char) : Prop :=
  ∃ c ∈ cs.getLast?, isBlank c = false

theorem Opens.append (h : Opens before) (after : List Char) : Opens (before ++ after) := by
  obtain ⟨c, hc, hblank⟩ := h
  exact ⟨c, List.mem_head?_append_of_mem_head? hc, hblank⟩

theorem Closes.append (h : Closes after) (before : List Char) : Closes (before ++ after) := by
  obtain ⟨c, hc, hblank⟩ := h
  exact ⟨c, List.mem_getLast?_append_of_mem_getLast? hc, hblank⟩

theorem opens_of_not_isBlank (hne : cs ≠ []) (h : ∀ c ∈ cs, isBlank c = false) : Opens cs :=
  ⟨cs.head hne, List.head?_eq_some_head hne, h _ (List.head_mem hne)⟩

theorem closes_of_not_isBlank (hne : cs ≠ []) (h : ∀ c ∈ cs, isBlank c = false) : Closes cs :=
  ⟨cs.getLast hne, List.getLast?_eq_some_getLast hne, h _ (List.getLast_mem hne)⟩

theorem Opens.head_not_isBlank (h : Opens cs) : ∀ c ∈ cs.head?, isBlank c = false := by
  obtain ⟨c, hc, hblank⟩ := h
  intro d hd
  obtain rfl : c = d := Option.some.inj (hc.symm.trans hd)
  exact hblank

theorem Closes.last_not_isBlank (h : Closes cs) : ∀ c ∈ cs.getLast?, isBlank c = false := by
  obtain ⟨c, hc, hblank⟩ := h
  intro d hd
  obtain rfl : c = d := Option.some.inj (hc.symm.trans hd)
  exact hblank

theorem strip_between (hbefore : ∀ c ∈ before, isBlank c = true) (hopens : Opens cs)
    (hcloses : Closes cs) (hafter : ∀ c ∈ after, isBlank c = true) :
    strip (String.ofList (before ++ cs ++ after)) = String.ofList cs :=
  trim_between hbefore hafter hopens.head_not_isBlank hcloses.last_not_isBlank

theorem strip_of_opens (hopens : Opens cs) (hcloses : Closes cs) :
    strip (String.ofList cs) = String.ofList cs := by
  have h := strip_between (List.forall_mem_nil _) hopens hcloses (List.forall_mem_nil _)
  rwa [List.nil_append, List.append_nil] at h

theorem splitFrom_eq (sep : Char → Bool) (part : List Char) (parts : List String) (cs : List Char) :
    splitFrom sep part parts cs =
      parts.reverse ++ (List.splitOnPPrepend sep cs part).map String.ofList := by
  induction cs generalizing part parts with
  | nil => simp [splitFrom]
  | cons c rest ih =>
    rw [splitFrom]
    split
    case isTrue hc =>
      rw [ih, List.splitOnPPrepend_cons_pos hc, List.splitOnP]
      simp
    case isFalse hc => rw [ih, List.splitOnPPrepend_cons_neg (by simpa using hc)]

theorem splitBy_intercalate {sep : Char} {parts : List (List Char)} (hparts : ∀ part ∈ parts, sep ∉ part)
    (hne : parts ≠ []) :
    splitBy (· == sep) (String.ofList ([sep].intercalate parts)) = parts.map String.ofList := by
  rw [splitBy, splitFrom_eq, String.toList_ofList, List.reverse_nil, List.nil_append]
  exact congrArg (List.map String.ofList) (List.splitOn_intercalate sep hparts hne)

theorem not_mem_intercalate {sep x : Char} {parts : List (List Char)} (hx : x ≠ sep)
    (hparts : ∀ part ∈ parts, x ∉ part) : x ∉ [sep].intercalate parts := by
  induction parts with
  | nil => exact List.not_mem_nil
  | cons part rest ih =>
    obtain ⟨hpart, hrest⟩ := List.forall_mem_cons.1 hparts
    by_cases hnil : rest = []
    · rwa [hnil, List.intercalate_singleton]
    · rw [List.intercalate_cons_of_ne_nil hnil, List.mem_append, List.mem_append, not_or, not_or]
      exact ⟨⟨hpart, by simpa using hx⟩, ih hrest⟩

theorem exists_intercalate_cons (sep : Char) (part : List Char) (rest : List (List Char)) :
    ∃ later, [sep].intercalate (part :: rest) = part ++ later ∧ (later = [] ∨ later.head? = some sep) := by
  cases rest with
  | nil => exact ⟨[], by simp, .inl rfl⟩
  | cons next rest =>
    exact ⟨sep :: [sep].intercalate (next :: rest), by simp [List.intercalate_cons_cons], .inr rfl⟩

theorem exists_intercalate_concat (sep : Char) (parts : List (List Char)) (last : List Char) :
    ∃ earlier, [sep].intercalate (parts ++ [last]) = earlier ++ last := by
  induction parts with
  | nil => exact ⟨[], by simp⟩
  | cons part rest ih =>
    obtain ⟨earlier, ih⟩ := ih
    refine ⟨part ++ [sep] ++ earlier, ?_⟩
    rw [List.cons_append, List.intercalate_cons_of_ne_nil (by simp), ih]
    simp

theorem lastPart_of_not_mem {sep : Char} (h : sep ∉ cs) :
    lastPart sep (String.ofList cs) = String.ofList cs := by
  rw [lastPart, String.toList_ofList, List.takeWhile_eq_self_iff.2, List.reverse_reverse]
  intro c hc
  simpa using fun heq : c = sep => h (by simpa [heq] using hc)

theorem lastPart_append {sep : Char} (h : sep ∉ after) (before : List Char) :
    lastPart sep (String.ofList (before ++ sep :: after)) = String.ofList after := by
  rw [lastPart, String.toList_ofList, List.reverse_append, List.reverse_cons, List.append_assoc,
    List.takeWhile_append_of_pos]
  · simp
  · intro c hc
    simpa using fun heq : c = sep => h (by simpa [heq] using hc)

end PluginAudit.Text
