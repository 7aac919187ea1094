import PluginAudit.Proofs.FileTrees
import Mathlib.Data.List.Nodup

namespace PluginAudit

namespace Entry

variable {e e' e'' x : Entry} {entries others : List (String × Entry)} {name : String}
  {parts : List String}

/-- The names in each directory are distinct. -/
inductive Proper : Entry → Prop
  | file (content : ByteArray) : Proper (.file content)
  | link (target : String) : Proper (.link target)
  | dir {entries : List (String × Entry)} (distinct : (entries.map Prod.fst).Nodup)
    (each : ∀ x ∈ entries, Proper x.2) : Proper (.dir entries)

/-- The same entries, where directories may list them in another order. -/
inductive Relisted : Entry → Entry → Prop
  | refl (e : Entry) : Relisted e e
  | trans {e e' e'' : Entry} : Relisted e e' → Relisted e' e'' → Relisted e e''
  | order {entries others : List (String × Entry)} :
    entries.Perm others → Relisted (.dir entries) (.dir others)
  | inside (front back : List (String × Entry)) (name : String) {e e' : Entry} :
    Relisted e e' →
      Relisted (.dir (front ++ (name, e) :: back)) (.dir (front ++ (name, e') :: back))

theorem child?_of_mem (distinct : (entries.map Prod.fst).Nodup) (h : (name, x) ∈ entries) :
    (dir entries).child? name = some x := by
  obtain ⟨y, hy⟩ : ∃ y, entries.find? (fun y => y.1 == name) = some y := by
    rw [← Option.isSome_iff_exists, List.find?_isSome]
    exact ⟨(name, x), h, beq_self_eq_true name⟩
  have hname : y.1 = name := by simpa using List.find?_some hy
  have heq : y = (name, x) :=
    List.inj_on_of_nodup_map distinct (List.mem_of_find?_eq_some hy) h hname
  rw [child?, hy, heq]
  rfl

theorem child?_eq_some_iff (distinct : (entries.map Prod.fst).Nodup) :
    (dir entries).child? name = some x ↔ (name, x) ∈ entries := by
  constructor
  · intro h
    obtain ⟨_, ⟨⟩, hx⟩ := mem_of_child? h
    exact hx
  · exact child?_of_mem distinct

theorem Proper.child? (he : e.Proper) (h : e.child? name = some x) : x.Proper := by
  obtain ⟨entries, rfl, hx⟩ := mem_of_child? h
  cases he with
  | dir distinct each => exact each _ hx

theorem foldl_child?_none (parts : List String) :
    parts.foldl (fun e part => e.bind (·.child? part)) (none : Option Entry) = none := by
  induction parts with
  | nil => rfl
  | cons part rest ih => exact ih

theorem plainEntry?_cons (e : Entry) (part : String) (rest : List String) :
    FileTree.plainEntry? e (part :: rest) = (e.child? part).bind (FileTree.plainEntry? · rest) := by
  unfold FileTree.plainEntry?
  rw [List.foldl_cons, Option.bind_some]
  cases e.child? part with
  | none => exact foldl_child?_none rest
  | some x => rfl

theorem mem_filesBelow_iff (he : e.Proper) {f : FoundFile} :
    f ∈ e.filesBelow [] ↔ FileTree.plainEntry? e f.parts = some (.file f.content) := by
  induction he generalizing f with
  | file content =>
    obtain ⟨parts, c⟩ := f
    cases parts with
    | nil => simp [filesBelow, FileTree.plainEntry?, eq_comm]
    | cons part rest => simp [filesBelow, plainEntry?_cons, child?]
  | link target =>
    obtain ⟨parts, c⟩ := f
    cases parts with
    | nil => simp [filesBelow, FileTree.plainEntry?]
    | cons part rest => simp [filesBelow, plainEntry?_cons, child?]
  | @dir entries distinct each ih =>
    obtain ⟨parts, c⟩ := f
    rw [mem_filesBelow_dir]
    constructor
    · rintro ⟨x, hx, hf⟩
      rw [filesBelow_eq_map] at hf
      obtain ⟨g, hg, heq⟩ := List.mem_map.1 hf
      cases heq
      change FileTree.plainEntry? _ (x.1 :: g.parts) = _
      rw [plainEntry?_cons, child?_of_mem distinct hx]
      exact (ih x hx).1 hg
    · intro h
      cases parts with
      | nil => cases h
      | cons part rest =>
        rw [plainEntry?_cons] at h
        obtain ⟨x, hx, hrest⟩ := Option.bind_eq_some_iff.1 h
        have hmem := (child?_eq_some_iff distinct).1 hx
        refine ⟨(part, x), hmem, ?_⟩
        rw [filesBelow_eq_map]
        exact List.mem_map.2 ⟨⟨rest, c⟩, (ih _ hmem).2 hrest, rfl⟩

theorem filesOf_eq_flatMap (parts : List String) (entries : List (String × Entry)) :
    filesOf parts entries = entries.flatMap fun x => x.2.filesBelow (parts ++ [x.1]) := by
  induction entries with
  | nil => rfl
  | cons x rest ih => rw [filesOf, ih, List.flatMap_cons]

theorem nodup_filesBelow (he : e.Proper) : ((e.filesBelow []).map FoundFile.parts).Nodup := by
  induction he with
  | file content => simp [filesBelow]
  | link target => simp [filesBelow]
  | @dir entries distinct each ih =>
    have below (x : String × Entry) : (x.2.filesBelow [x.1]).map FoundFile.parts =
        ((x.2.filesBelow []).map FoundFile.parts).map (x.1 :: ·) := by
      rw [filesBelow_eq_map, List.map_map, List.map_map]
      rfl
    rw [filesBelow, filesOf_eq_flatMap, List.map_flatMap, List.nodup_flatMap]
    constructor
    · intro x hx
      rw [List.nil_append, below]
      exact (ih x hx).map (List.cons_injective)
    · apply (List.pairwise_map.1 distinct).imp
      intro x y hne p hx hy
      dsimp only at hx hy
      rw [List.nil_append, below] at hx hy
      obtain ⟨_, -, rfl⟩ := List.mem_map.1 hx
      obtain ⟨_, -, heq⟩ := List.mem_map.1 hy
      exact hne (List.cons.inj heq).1.symm

namespace Relisted

theorem symm (h : e.Relisted e') : e'.Relisted e := by
  induction h with
  | refl e => exact .refl e
  | trans _ _ ih ih' => exact .trans ih' ih
  | order h => exact .order h.symm
  | inside front back name _ ih => exact .inside front back name ih

theorem proper (h : e.Relisted e') (he : e.Proper) : e'.Proper := by
  induction h with
  | refl => exact he
  | trans _ _ ih ih' => exact ih' (ih he)
  | order h =>
    cases he with
    | dir distinct each =>
      exact .dir ((h.map Prod.fst).nodup distinct) fun x hx => each x (h.mem_iff.2 hx)
  | inside front back name _ ih =>
    cases he with
    | dir distinct each =>
      refine .dir (by simpa using distinct) fun x hx => ?_
      obtain hx | hx := List.mem_append.1 hx
      · exact each x (List.mem_append_left _ hx)
      · obtain rfl | hx := List.mem_cons.1 hx
        · exact ih (each (name, _) (by simp))
        · exact each x (by simp [hx])

theorem eq_or_dir (h : e.Relisted e') :
    e = e' ∨ ∃ entries others, e = .dir entries ∧ e' = .dir others := by
  induction h with
  | refl => exact .inl rfl
  | trans _ _ ih ih' =>
    obtain rfl | ⟨entries, others, rfl, rfl⟩ := ih
    · exact ih'
    · obtain rfl | ⟨_, others', -, rfl⟩ := ih'
      · exact .inr ⟨_, _, rfl, rfl⟩
      · exact .inr ⟨_, _, rfl, rfl⟩
  | order => exact .inr ⟨_, _, rfl, rfl⟩
  | inside => exact .inr ⟨_, _, rfl, rfl⟩

theorem of_dir (h : (dir entries).Relisted e') : ∃ others, e' = .dir others := by
  obtain rfl | ⟨_, others, -, rfl⟩ := h.eq_or_dir
  · exact ⟨entries, rfl⟩
  · exact ⟨others, rfl⟩

theorem of_link {target : String} (h : (link target).Relisted e') : e' = .link target := by
  obtain rfl | ⟨_, _, ⟨⟩, -⟩ := h.eq_or_dir
  rfl

theorem child? (h : e.Relisted e') (he : e.Proper) {name : String} {x : Entry}
    (hx : e.child? name = some x) : ∃ x', e'.child? name = some x' ∧ x.Relisted x' := by
  induction h generalizing x with
  | refl => exact ⟨x, hx, .refl x⟩
  | trans h _ ih ih' =>
    obtain ⟨y, hy, hxy⟩ := ih he hx
    obtain ⟨z, hz, hyz⟩ := ih' (h.proper he) hy
    exact ⟨z, hz, hxy.trans hyz⟩
  | order h =>
    cases he with
    | dir distinct each =>
      have hmem := h.mem_iff.1 ((child?_eq_some_iff distinct).1 hx)
      exact ⟨x, child?_of_mem ((h.map Prod.fst).nodup distinct) hmem, .refl x⟩
  | @inside front back part e e' h ih =>
    have distinct : ((front ++ (part, e') :: back).map Prod.fst).Nodup := by
      cases he with
      | dir distinct each => simpa using distinct
    have hmem : (name, x) ∈ front ++ (part, e) :: back := by
      obtain ⟨_, ⟨⟩, hx⟩ := mem_of_child? hx
      exact hx
    obtain hmem | hmem := List.mem_append.1 hmem
    · exact ⟨x, child?_of_mem distinct (List.mem_append_left _ hmem), .refl x⟩
    · obtain heq | hmem := List.mem_cons.1 hmem
      · cases heq
        exact ⟨e', child?_of_mem distinct (by simp), h⟩
      · exact ⟨x, child?_of_mem distinct (by simp [hmem]), .refl x⟩

theorem plainEntry? (h : e.Relisted e') (he : e.Proper)
    (hx : FileTree.plainEntry? e parts = some x) :
    ∃ x', FileTree.plainEntry? e' parts = some x' ∧ x.Relisted x' := by
  induction parts generalizing e e' with
  | nil =>
    cases hx
    exact ⟨e', rfl, h⟩
  | cons part rest ih =>
    rw [plainEntry?_cons] at hx ⊢
    obtain ⟨y, hy, hrest⟩ := Option.bind_eq_some_iff.1 hx
    obtain ⟨y', hy', hyy'⟩ := h.child? he hy
    rw [hy']
    exact ih hyy' (he.child? hy) hrest

theorem perm_filesBelow (h : e.Relisted e') (parts : List String) :
    (e.filesBelow parts).Perm (e'.filesBelow parts) := by
  induction h generalizing parts with
  | refl => exact .refl _
  | trans _ _ ih ih' => exact (ih parts).trans (ih' parts)
  | order h =>
    rw [filesBelow, filesBelow, filesOf_eq_flatMap, filesOf_eq_flatMap]
    exact h.flatMap_right _
  | inside front back name _ ih =>
    simp only [filesBelow, filesOf_eq_flatMap, List.flatMap_append, List.flatMap_cons]
    exact ((ih _).append_right _).append_left _

end Relisted

end Entry

section Order

theorem walksBefore_deep (a a' b b' : String) (as bs : List String) :
    walksBefore (a :: a' :: as) (b :: b' :: bs) = true ↔
      (a = b ∧ walksBefore (a' :: as) (b' :: bs) = true) ∨ (a ≠ b ∧ a ≤ b) := by
  rw [walksBefore]
  · by_cases h : a = b <;> simp [h]
  all_goals simp

theorem walksBefore_total : ∀ a b : List String, (walksBefore a b || walksBefore b a) = true
  | [], _ => by simp [walksBefore]
  | _ :: _, [] => by simp [walksBefore]
  | [a], [b] => by simpa [walksBefore] using String.le_total a b
  | [_], _ :: _ :: _ => by simp [walksBefore]
  | _ :: _ :: _, [_] => by simp [walksBefore]
  | a :: a' :: as, b :: b' :: bs => by
    rw [Bool.or_eq_true, walksBefore_deep, walksBefore_deep]
    by_cases h : a = b
    · subst h
      simpa using walksBefore_total (a' :: as) (b' :: bs)
    · obtain hle | hle := String.le_total a b
      · exact .inl (.inr ⟨h, hle⟩)
      · exact .inr (.inr ⟨Ne.symm h, hle⟩)

theorem walksBefore_antisymm : ∀ a b : List String, walksBefore a b = true →
    walksBefore b a = true → a = b
  | [], [] => fun _ _ => rfl
  | [], _ :: _ => fun _ h => by simp [walksBefore] at h
  | _ :: _, [] => fun h => by simp [walksBefore] at h
  | [a], [b] => fun hab hba => by
    simp only [walksBefore, decide_eq_true_eq] at hab hba
    rw [String.le_antisymm hab hba]
  | [_], _ :: _ :: _ => fun _ h => by simp [walksBefore] at h
  | _ :: _ :: _, [_] => fun h => by simp [walksBefore] at h
  | a :: a' :: as, b :: b' :: bs => fun hab hba => by
    rw [walksBefore_deep] at hab hba
    obtain ⟨rfl, hab⟩ | ⟨hne, hab⟩ := hab
    · obtain ⟨-, hba⟩ | ⟨hne, -⟩ := hba
      · rw [walksBefore_antisymm _ _ hab hba]
      · exact absurd rfl hne
    · obtain ⟨rfl, -⟩ | ⟨-, hba⟩ := hba
      · exact absurd rfl hne
      · exact absurd (String.le_antisymm hab hba) hne

theorem walksBefore_trans : ∀ a b c : List String, walksBefore a b = true →
    walksBefore b c = true → walksBefore a c = true
  | [], _, _ => fun _ _ => by simp [walksBefore]
  | _ :: _, [], _ => fun h => by simp [walksBefore] at h
  | _ :: _, _ :: _, [] => fun _ h => by simp [walksBefore] at h
  | [a], [b], [c] => fun hab hbc => by
    simp only [walksBefore, decide_eq_true_eq] at hab hbc ⊢
    exact String.le_trans hab hbc
  | [_], _, _ :: _ :: _ => fun _ _ => by simp [walksBefore]
  | [_], _ :: _ :: _, [_] => fun _ h => by simp [walksBefore] at h
  | _ :: _ :: _, [_], _ => fun h => by simp [walksBefore] at h
  | _ :: _ :: _, _ :: _ :: _, [_] => fun _ h => by simp [walksBefore] at h
  | a :: a' :: as, b :: b' :: bs, c :: c' :: cs => fun hab hbc => by
    rw [walksBefore_deep] at hab hbc ⊢
    obtain ⟨rfl, hab⟩ | ⟨hne, hab⟩ := hab
    · obtain ⟨rfl, hbc⟩ | hbc := hbc
      · exact .inl ⟨rfl, walksBefore_trans _ _ _ hab hbc⟩
      · exact .inr hbc
    · obtain ⟨rfl, -⟩ | ⟨-, hbc⟩ := hbc
      · exact .inr ⟨hne, hab⟩
      · refine .inr ⟨?_, String.le_trans hab hbc⟩
        rintro rfl
        exact hne (String.le_antisymm hab hbc)

end Order

namespace FileTree

variable {root root' e : Entry} {links : Nat} {here here' : List Entry} {parts done : List String}

theorem headD_relisted (hroot : root.Relisted root')
    (hhere : List.Forall₂ Entry.Relisted here here') :
    (here.headD root).Relisted (here'.headD root') := by
  cases hhere with
  | nil => exact hroot
  | cons h _ => exact h

theorem headD_proper (hroot : root.Proper) (hhere : ∀ x ∈ here, x.Proper) :
    (here.headD root).Proper := by
  cases here with
  | nil => exact hroot
  | cons x rest => exact hhere x List.mem_cons_self

theorem follow_link {part target : String} {rest : List String} {left : Nat} (hpart : part ≠ "..")
    (hx : (here.headD root).child? part = some (.link target)) :
    follow root (left + 1) here (part :: rest) =
      follow root left (if (Path.ofText target).isAbsolute then [] else here)
        ((Path.ofText target).parts ++ rest) := by
  obtain ⟨entries, hdir, -⟩ := Entry.mem_of_child? hx
  rw [hdir] at hx
  rw [follow]
  · simp only [hdir, hx]
  · exact hpart

theorem follow_plain {part : String} {rest : List String} {x : Entry} (hpart : part ≠ "..")
    (hx : (here.headD root).child? part = some x) (hlink : ∀ target, x ≠ .link target) :
    follow root links here (part :: rest) = follow root links (x :: here) rest := by
  obtain ⟨entries, hdir, -⟩ := Entry.mem_of_child? hx
  rw [hdir] at hx
  rw [follow]
  · simp only [hdir, hx]
  · exact hpart

/-- A path leads to the same entry, up to the order of listings. -/
theorem follow_relisted (hroot : root.Relisted root') (proper : root.Proper)
    (each : ∀ x ∈ here, x.Proper) (h : follow root links here parts = .ok e) :
    e.Proper ∧ ∀ here', List.Forall₂ Entry.Relisted here here' →
      ∃ e', follow root' links here' parts = .ok e' ∧ e.Relisted e' := by
  fun_induction follow root links here parts with
  | case1 links here =>
    rw [← Except.ok.inj h]
    refine ⟨headD_proper proper each, fun here' hhere => ?_⟩
    exact ⟨_, by rw [follow], headD_relisted hroot hhere⟩
  | case2 links here rest ih =>
    obtain ⟨he, ih⟩ := ih (fun x hx => each x (List.mem_of_mem_tail hx)) h
    refine ⟨he, fun here' hhere => ?_⟩
    rw [follow]
    cases hhere with
    | nil => exact ih _ .nil
    | cons _ hrest => exact ih _ hrest
  | case3 => cases h
  | case4 => cases h
  | case5 here current part rest hpart entries hdir target hx left path ih =>
    have each' : ∀ x ∈ if path.isAbsolute then [] else here, x.Proper := by
      intro x hx
      split at hx
      · cases hx
      · exact each x hx
    obtain ⟨he, ih⟩ := ih each' h
    refine ⟨he, fun here' hhere => ?_⟩
    obtain ⟨x', hx', hsame⟩ :=
      (headD_relisted hroot hhere).child? (headD_proper proper each) hx
    obtain rfl := hsame.of_link
    rw [follow_link hpart hx']
    apply ih
    split
    · exact .nil
    · exact hhere
  | case6 links here current part rest hpart entries hdir x hlink hx ih =>
    have hcurrent := headD_proper proper each
    have each' : ∀ y ∈ x :: here, y.Proper := by
      intro y hy
      obtain rfl | hy := List.mem_cons.1 hy
      · exact hcurrent.child? hx
      · exact each y hy
    obtain ⟨he, ih⟩ := ih each' h
    refine ⟨he, fun here' hhere => ?_⟩
    obtain ⟨x', hx', hsame⟩ := (headD_relisted hroot hhere).child? hcurrent hx
    have hlink' : ∀ target, x' ≠ .link target := by
      rintro target rfl
      exact hlink target hsame.symm.of_link
    rw [follow_plain hpart hx' hlink']
    exact ih _ (.cons hsame hhere)
  | case7 => cases h

theorem plainEntry?_link_iff (hroot : root.Relisted root') (proper : root.Proper)
    (parts : List String) (target : String) :
    plainEntry? root' parts = some (.link target) ↔
      plainEntry? root parts = some (.link target) := by
  constructor
  · intro h
    obtain ⟨x, hx, hsame⟩ := hroot.symm.plainEntry? (hroot.proper proper) h
    rw [hx, hsame.of_link]
  · intro h
    obtain ⟨x, hx, hsame⟩ := hroot.plainEntry? proper h
    rw [hx, hsame.of_link]

theorem realParts_relisted (hroot : root.Relisted root') (proper : root.Proper) :
    realParts root' links done parts = realParts root links done parts := by
  have link := plainEntry?_link_iff hroot proper
  fun_induction realParts root links done parts with
  | case1 => rw [realParts]
  | case2 links done rest ih => rw [realParts, ih]
  | case3 done part rest hpart target hx ih =>
    rw [realParts, (link _ target).2 hx, ih]
    exact hpart
  | case4 done part rest hpart target hx left path ih =>
    rw [realParts, (link _ target).2 hx]
    · exact ih
    · exact hpart
  | case5 links done part rest hpart hx ih =>
    rw [realParts]
    · split
      case h_1 target hx' => exact absurd ((link _ target).1 hx') (hx target)
      case h_2 => exact ih
    · exact hpart

variable {t : FileTree} {p : Path}

/-- Puts other listings in the place of those of a tree. -/
def relist (t : FileTree) (root' : Entry) : FileTree :=
  { t with root := root' }

theorem resolve_relist (h : t.root.Relisted root') (proper : t.root.Proper) :
    (t.relist root').resolve p = t.resolve p := by
  unfold resolve
  dsimp only
  exact congrArg (Path.mk _) (realParts_relisted h proper)

theorem entry_relist (h : t.root.Relisted root') (proper : t.root.Proper)
    (he : t.entry p = .ok e) :
    e.Proper ∧ ∃ e', (t.relist root').entry p = .ok e' ∧ e.Relisted e' := by
  obtain ⟨hproper, hsame⟩ := follow_relisted h proper (by simp) he
  exact ⟨hproper, hsame [] .nil⟩

/-- The files below an entry in the order of a walk. -/
def sorted (e : Entry) : List FoundFile :=
  (e.filesBelow []).mergeSort fun a b => walksBefore a.parts b.parts

theorem walk_dir {entries : List (String × Entry)} (he : t.entry p = .ok (.dir entries)) :
    t.walk p = sorted (.dir entries) := by
  unfold walk
  rw [he]
  rfl

theorem walk_eq_nil (h : ∀ entries, t.entry p ≠ .ok (.dir entries)) : t.walk p = [] := by
  unfold walk
  split
  case h_1 entries he => exact absurd he (h entries)
  case h_2 => rfl

theorem pairwise_sorted (e : Entry) :
    (sorted e).Pairwise fun a b => walksBefore a.parts b.parts = true :=
  List.pairwise_mergeSort (fun a b c => walksBefore_trans a.parts b.parts c.parts)
    (fun a b => walksBefore_total a.parts b.parts) _

theorem nodup_sorted (proper : e.Proper) : ((sorted e).map FoundFile.parts).Nodup :=
  (((List.mergeSort_perm ..).map _).nodup_iff).2 (Entry.nodup_filesBelow proper)

/-- No two files have the same place in the order, so there is one way to sort them. -/
theorem sorted_relisted {e' : Entry} (h : e.Relisted e') (proper : e.Proper) :
    sorted e' = sorted e := by
  have same : (sorted e').Perm (sorted e) :=
    (List.mergeSort_perm ..).trans ((h.perm_filesBelow []).symm.trans (List.mergeSort_perm ..).symm)
  refine List.Perm.eq_of_pairwise ?_ (pairwise_sorted e') (pairwise_sorted e) same
  intro a b ha hb hab hba
  exact List.inj_on_of_nodup_map (nodup_sorted proper) (same.mem_iff.1 ha) hb
    (walksBefore_antisymm _ _ hab hba)

theorem nodup_walk (proper : t.root.Proper) : ((t.walk p).map FoundFile.parts).Nodup := by
  by_cases hdir : ∃ entries, t.entry p = .ok (.dir entries)
  case pos =>
    obtain ⟨entries, he⟩ := hdir
    obtain ⟨hproper, -⟩ := entry_relist (.refl _) proper he
    rw [walk_dir he]
    exact nodup_sorted hproper
  case neg =>
    rw [walk_eq_nil fun entries he => hdir ⟨entries, he⟩]
    exact List.nodup_nil

theorem mem_walk_iff (proper : t.root.Proper) {entries : List (String × Entry)}
    (he : t.entry p = .ok (.dir entries)) {f : FoundFile} :
    f ∈ t.walk p ↔ plainEntry? (.dir entries) f.parts = some (.file f.content) := by
  obtain ⟨hproper, -⟩ := entry_relist (.refl _) proper he
  rw [walk_dir he, sorted, List.mem_mergeSort, Entry.mem_filesBelow_iff hproper]

theorem walk_relist (h : t.root.Relisted root') (proper : t.root.Proper) :
    (t.relist root').walk p = t.walk p := by
  by_cases hdir : ∃ entries, t.entry p = .ok (.dir entries)
  case pos =>
    obtain ⟨entries, he⟩ := hdir
    obtain ⟨hproper, e', he', hsame⟩ := entry_relist h proper he
    obtain ⟨others, rfl⟩ := hsame.of_dir
    rw [walk_dir he, walk_dir he', sorted_relisted hsame hproper]
  case neg =>
    rw [walk_eq_nil fun entries he => hdir ⟨entries, he⟩]
    apply walk_eq_nil
    intro others he'
    -- Listed in its old order the directory would be found as well.
    obtain ⟨-, e, he, hsame⟩ := entry_relist (t := t.relist root') h.symm (h.proper proper) he'
    obtain ⟨entries, rfl⟩ := hsame.of_dir
    exact hdir ⟨entries, he⟩

end FileTree

end PluginAudit
