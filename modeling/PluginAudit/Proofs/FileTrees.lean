import PluginAudit.FileTree.Walk
import Mathlib.Tactic.Common

namespace PluginAudit

namespace Entry

mutual

theorem length_filesBelow (parts : List String) :
    ∀ e : Entry, (e.filesBelow parts).length = e.fileCount
  | .file _ => rfl
  | .dir entries => by rw [filesBelow, fileCount, length_filesOf]
  | .link _ => rfl

theorem length_filesOf (parts : List String) :
    ∀ entries : List (String × Entry), (filesOf parts entries).length = fileCounts entries
  | [] => rfl
  | (name, e) :: rest => by
    rw [filesOf, fileCounts, List.length_append, length_filesBelow, length_filesOf]

end

theorem mem_filesOf {parts : List String} {entries : List (String × Entry)} {f : FoundFile} :
    f ∈ filesOf parts entries ↔ ∃ x ∈ entries, f ∈ x.2.filesBelow (parts ++ [x.1]) := by
  induction entries with
  | nil => simp [filesOf]
  | cons x rest ih => simp [filesOf, ih]

mutual

/-- Where the files are listed from bears on their paths only. -/
theorem filesBelow_eq_map (parts : List String) :
    ∀ e : Entry, e.filesBelow parts =
      (e.filesBelow []).map fun f => ⟨parts ++ f.parts, f.content⟩
  | .file _ => by simp [filesBelow]
  | .dir entries => by rw [filesBelow, filesBelow, filesOf_eq_map]
  | .link _ => rfl

theorem filesOf_eq_map (parts : List String) :
    ∀ entries : List (String × Entry), filesOf parts entries =
      (filesOf [] entries).map fun f => ⟨parts ++ f.parts, f.content⟩
  | [] => rfl
  | (name, e) :: rest => by
    rw [filesOf, filesOf, filesBelow_eq_map _ e, filesOf_eq_map parts rest, List.map_append,
      List.nil_append, filesBelow_eq_map [name] e, List.map_map]
    simp [Function.comp_def]

end

theorem mem_filesBelow_dir {parts : List String} {entries : List (String × Entry)}
    {f : FoundFile} :
    f ∈ (dir entries).filesBelow parts ↔
      ∃ x ∈ entries, f ∈ x.2.filesBelow (parts ++ [x.1]) := by
  rw [filesBelow, mem_filesOf]

/-- What is inside the files below an entry. -/
def contents (e : Entry) : List ByteArray :=
  (e.filesBelow []).map FoundFile.content

theorem length_contents (e : Entry) : e.contents.length = e.fileCount := by
  rw [contents, List.length_map, length_filesBelow]

theorem mem_of_child? {e x : Entry} {name : String} (h : e.child? name = some x) :
    ∃ entries, e = .dir entries ∧ (name, x) ∈ entries := by
  cases e with
  | dir entries =>
    obtain ⟨y, hy, rfl⟩ := Option.map_eq_some_iff.1 h
    have hname : y.1 = name := by simpa using List.find?_some hy
    refine ⟨entries, rfl, ?_⟩
    rw [← hname]
    exact List.mem_of_find?_eq_some hy
  | file => cases h
  | link => cases h

theorem contents_subset_of_child? {e x : Entry} {name : String} (h : e.child? name = some x) :
    x.contents ⊆ e.contents := by
  obtain ⟨entries, rfl, hx⟩ := mem_of_child? h
  intro c hc
  obtain ⟨f, hf, rfl⟩ := List.mem_map.1 hc
  refine List.mem_map.2 ⟨⟨[name] ++ f.parts, f.content⟩, ?_, rfl⟩
  refine mem_filesBelow_dir.2 ⟨(name, x), hx, ?_⟩
  rw [List.nil_append, filesBelow_eq_map]
  exact List.mem_map_of_mem hf

end Entry

namespace FileTree

theorem headD_contents_subset {root : Entry} {here : List Entry}
    (h : ∀ x ∈ here, x.contents ⊆ root.contents) :
    (here.headD root).contents ⊆ root.contents := by
  cases here with
  | nil => exact fun _ hc => hc
  | cons x rest => exact h x List.mem_cons_self

/-- Whatever is reached on the way, be it over links, holds no other files than the root. -/
theorem contents_subset_of_follow {root : Entry} {links : Nat} {here : List Entry}
    {parts : List String} {e : Entry} (hhere : ∀ x ∈ here, x.contents ⊆ root.contents)
    (h : follow root links here parts = .ok e) : e.contents ⊆ root.contents := by
  fun_induction follow root links here parts with
  | case1 links here =>
    rw [← Except.ok.inj h]
    exact headD_contents_subset hhere
  | case2 links here rest ih => exact ih (fun x hx => hhere x (List.mem_of_mem_tail hx)) h
  | case3 => cases h
  | case4 => cases h
  | case5 here current part rest hpart entries hdir target htarget left path ih =>
    refine ih (fun x hx => ?_) h
    split at hx
    · cases hx
    · exact hhere x hx
  | case6 links here current part rest hpart entries hdir x hlink hx ih =>
    refine ih (fun y hy => ?_) h
    obtain rfl | hy := List.mem_cons.1 hy
    · exact List.Subset.trans (Entry.contents_subset_of_child? hx) (headD_contents_subset hhere)
    · exact hhere y hy
  | case7 => cases h

theorem mem_contents_of_read {t : FileTree} {p : Path} {content : ByteArray}
    (h : t.read p = .ok content) : content ∈ t.root.contents := by
  unfold read at h
  split at h
  case h_1 c he =>
    cases h
    exact contents_subset_of_follow (by simp) he (by simp [Entry.contents, Entry.filesBelow])
  all_goals cases h

end FileTree

end PluginAudit
