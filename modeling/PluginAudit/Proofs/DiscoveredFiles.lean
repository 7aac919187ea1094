import PluginAudit.Discovery
import PluginAudit.Proofs.Listings
import Mathlib

namespace PluginAudit

namespace Entry

/-- Directories alone lead from an entry to a file. -/
def Reaches (e : Entry) (f : FoundFile) : Prop :=
  FileTree.plainEntry? e f.parts = some (.file f.content)

end Entry

namespace Discovery

variable {limits : ScanLimits} {web : Bool} {t : FileTree} {root : Path} {f : FoundFile}

/-- What a pattern is matched by, without its mark of negation. -/
def globOf (pattern : String) : String :=
  (Text.afterHead? pattern "!").getD pattern

/-- The last of some patterns that matches a path of the file. -/
structure LastMatch (patterns : List String) (root : Path) (f : FoundFile) (pattern : String) :
    Prop where
  last : ∃ before after, patterns = before ++ pattern :: after ∧
    ∀ q ∈ after, matchesPath root f (globOf q) = false
  here : matchesPath root f (globOf pattern) = true

/-- The last pattern that matches is not negated. -/
def Ignored (limits : ScanLimits) (root : Path) (f : FoundFile) : Prop :=
  ∃ pattern, LastMatch limits.ignore root f pattern ∧ Text.afterHead? pattern "!" = none

/-- The file is searched for a payload. A script is not, unless it is ignored. -/
def Sniffed (limits : ScanLimits) (root : Path) (f : FoundFile) : Prop :=
  extensionOf f ∉ limits.phpExtensions ∨ Ignored limits root f

/-- A payload was found. -/
def Payload (limits : ScanLimits) (web : Bool) (root : Path) (f : FoundFile) : Prop :=
  Sniffed limits root f ∧ sniff limits web f = true

/-- A PHP extension stands last or next to last among at least three dot parts. -/
def DoubleExtension (limits : ScanLimits) (name : String) : Prop :=
  ∃ front a b, Text.splitBy (· == '.') (Text.lower name) = front ++ [a, b] ∧ front ≠ [] ∧
    (a ∈ limits.phpExtensions ∨ b ∈ limits.phpExtensions)

/-- A file that is not ignored, or not effectively, and has something to be scanned for. -/
structure Admitted (limits : ScanLimits) (web : Bool) (root : Path) (f : FoundFile) : Prop where
  kept : ¬Ignored limits root f ∨
    Payload limits web root f ∧ limits.strictIgnoreBlocksPayload = false
  wanted : extensionOf f ∈ limits.phpExtensions ∨ DoubleExtension limits f.name ∨
    Payload limits web root f ∨ limits.includeNonPhp = true

/-- A cap that counts and is exceeded. -/
def Exceeds (f : FoundFile) (cap : Int) : Prop :=
  0 < cap ∧ cap < f.content.size

/-- No cap is exceeded that holds for the file. -/
structure Fits (limits : ScanLimits) (f : FoundFile) : Prop where
  extension : ∀ cap, limits.scanSize.find? (extensionOf f) = some cap → ¬Exceeds f cap
  all : ¬Exceeds f limits.maxWebFileBytes

structure Eligible (limits : ScanLimits) (web : Bool) (root : Path) (f : FoundFile) : Prop where
  admitted : Admitted limits web root f
  fits : web = true → Fits limits f

/-- The cap that is told of: the one for the extension, if both are exceeded. -/
inductive Over (limits : ScanLimits) (f : FoundFile) : IgnoreReason → Prop
  | scanSize {cap : Int} : limits.scanSize.find? (extensionOf f) = some cap → Exceeds f cap →
    Over limits f (.scanSize cap f.content.size)
  | webSize : (∀ cap, limits.scanSize.find? (extensionOf f) = some cap → ¬Exceeds f cap) →
    Exceeds f limits.maxWebFileBytes →
    Over limits f (.webSize limits.maxWebFileBytes f.content.size)

/-- Why a file is dropped. -/
inductive DroppedFor (limits : ScanLimits) (web : Bool) (root : Path) (f : FoundFile) :
    IgnoreReason → Prop
  | pattern : Ignored limits root f →
    ¬(Payload limits web root f ∧ limits.strictIgnoreBlocksPayload = false) →
    DroppedFor limits web root f .pattern
  | cap {why : IgnoreReason} : Admitted limits web root f → web = true → Over limits f why →
    DroppedFor limits web root f why

theorem lastMatch_concat {patterns : List String} {p pattern : String} :
    LastMatch (patterns ++ [p]) root f pattern ↔
      if matchesPath root f (globOf p) then pattern = p
      else LastMatch patterns root f pattern := by
  constructor
  · rintro ⟨⟨before, after, heq, hafter⟩, hhere⟩
    obtain rfl | ⟨after, q, rfl⟩ := after.eq_nil_or_concat
    · obtain ⟨rfl, ⟨⟩⟩ := List.append_inj' heq rfl
      rw [if_pos hhere]
    · rw [List.concat_eq_append] at hafter
      rw [List.concat_eq_append, ← List.cons_append, ← List.append_assoc] at heq
      obtain ⟨rfl, ⟨⟩⟩ := List.append_inj' heq rfl
      have hp := hafter p (by simp)
      rw [hp]
      exact ⟨⟨before, after, rfl, fun q hq => hafter q (by simp [hq])⟩, hhere⟩
  · split
    case isTrue h =>
      rintro rfl
      exact ⟨⟨patterns, [], rfl, by simp⟩, h⟩
    case isFalse h =>
      rintro ⟨⟨before, after, rfl, hafter⟩, hhere⟩
      refine ⟨⟨before, after ++ [p], by simp, fun q hq => ?_⟩, hhere⟩
      obtain hq | hq := List.mem_append.1 hq
      · exact hafter q hq
      · rw [List.mem_singleton.1 hq]
        exact Bool.eq_false_iff.2 h

theorem afterPattern_eq (ignored : Bool) (p : String) :
    afterPattern root f ignored p =
      if matchesPath root f (globOf p) then (Text.afterHead? p "!").isNone else ignored := by
  unfold afterPattern globOf
  cases Text.afterHead? p "!" <;> rfl

theorem isIgnored_iff : isIgnored limits root f = true ↔ Ignored limits root f := by
  unfold isIgnored Ignored
  induction limits.ignore using List.reverseRecOn with
  | nil =>
    refine iff_of_false Bool.false_ne_true ?_
    rintro ⟨_, ⟨⟨before, after, heq, -⟩, -⟩, -⟩
    exact List.append_ne_nil_of_right_ne_nil before (List.cons_ne_nil _ after) heq.symm
  | append_singleton patterns p ih =>
    simp only [List.foldl_append, List.foldl_cons, List.foldl_nil, lastMatch_concat,
      afterPattern_eq _ p]
    split
    case isTrue => simp
    case isFalse => exact ih

theorem hasPhpExtension_iff :
    hasPhpExtension limits f = true ↔ extensionOf f ∈ limits.phpExtensions :=
  List.contains_iff_mem

theorem isSniffed_iff : isSniffed limits root f = true ↔ Sniffed limits root f := by
  unfold isSniffed Sniffed
  rw [Bool.or_eq_true, isIgnored_iff, Bool.not_eq_true', ← Bool.not_eq_true, hasPhpExtension_iff]

theorem foundPayload_iff : foundPayload limits web root f = true ↔ Payload limits web root f := by
  rw [foundPayload, Bool.and_eq_true, isSniffed_iff, Payload]

theorem hasDoubleExtension_iff {name : String} :
    hasDoubleExtension limits name = true ↔ DoubleExtension limits name := by
  unfold hasDoubleExtension DoubleExtension
  generalize hparts : Text.splitBy (· == '.') (Text.lower name) = parts
  constructor
  · intro h
    simp only [Bool.and_eq_true, decide_eq_true_eq] at h
    obtain ⟨hlength, hany⟩ := h
    -- Seen from its end, the list has two parts and more.
    rw [← parts.reverse_reverse] at hlength ⊢
    generalize parts.reverse = rev at hlength hany ⊢
    match rev with
    | [] | [_] | [_, _] => simp at hlength
    | b :: a :: c :: rest =>
      refine ⟨(c :: rest).reverse, a, b, by simp, by simp, ?_⟩
      simpa [or_comm] using hany
  · rintro ⟨front, a, b, rfl, hfront, hphp⟩
    have hlength := List.length_pos_iff.2 hfront
    simp only [List.length_append, List.length_cons, List.length_nil, List.reverse_append]
    simp [or_comm, hphp]
    omega

theorem overSize?_eq_some_iff {why : IgnoreReason} :
    overSize? limits (extensionOf f) f.content.size = some why ↔ Over limits f why := by
  have exceeded (cap : Int) :
      (decide (0 < cap) && decide (cap < f.content.size)) = true ↔ Exceeds f cap := by
    simp [Exceeds]
  unfold overSize?
  dsimp only
  constructor
  · intro h
    split at h
    case h_1 cap hcap =>
      cases h
      obtain ⟨hfind, hover⟩ := Option.filter_eq_some_iff.1 hcap
      exact .scanSize hfind ((exceeded cap).1 hover)
    case h_2 hnone =>
      split at h
      case isTrue hover =>
        cases h
        refine .webSize (fun cap hfind hcap => ?_) ((exceeded _).1 hover)
        exact Option.filter_eq_none_iff.1 hnone cap hfind ((exceeded cap).2 hcap)
      case isFalse => cases h
  · intro h
    cases h with
    | scanSize hfind hover =>
      rw [Option.filter_eq_some_iff.2 ⟨hfind, (exceeded _).2 hover⟩]
    | webSize hnone hover =>
      rw [Option.filter_eq_none_iff.2 fun cap hfind hcap =>
        hnone cap hfind ((exceeded cap).1 hcap)]
      exact if_pos ((exceeded _).2 hover)

theorem overSize?_eq_none_iff :
    overSize? limits (extensionOf f) f.content.size = none ↔ Fits limits f := by
  rw [Option.eq_none_iff_forall_ne_some]
  simp only [ne_eq, overSize?_eq_some_iff]
  constructor
  · intro h
    have hextension : ∀ cap, limits.scanSize.find? (extensionOf f) = some cap → ¬Exceeds f cap :=
      fun cap hfind hcap => h _ (.scanSize hfind hcap)
    exact ⟨hextension, fun hcap => h _ (.webSize hextension hcap)⟩
  · rintro ⟨hextension, hall⟩ why hover
    cases hover with
    | scanSize hfind hcap => exact hextension _ hfind hcap
    | webSize _ hcap => exact hall hcap

theorem blocked_iff :
    (isIgnored limits root f && !(foundPayload limits web root f &&
      !limits.strictIgnoreBlocksPayload)) = true ↔
      Ignored limits root f ∧
        ¬(Payload limits web root f ∧ limits.strictIgnoreBlocksPayload = false) := by
  rw [Bool.and_eq_true, isIgnored_iff, Bool.not_eq_true', ← Bool.not_eq_true, Bool.and_eq_true,
    foundPayload_iff, Bool.not_eq_true']

theorem wanted_iff :
    (hasPhpExtension limits f || hasDoubleExtension limits f.name ||
      foundPayload limits web root f || limits.includeNonPhp) = true ↔
      extensionOf f ∈ limits.phpExtensions ∨ DoubleExtension limits f.name ∨
        Payload limits web root f ∨ limits.includeNonPhp = true := by
  rw [Bool.or_eq_true, Bool.or_eq_true, Bool.or_eq_true, hasPhpExtension_iff,
    hasDoubleExtension_iff, foundPayload_iff, or_assoc, or_assoc]

theorem inspect_of_blocked (hignored : Ignored limits root f)
    (hblocked : ¬(Payload limits web root f ∧ limits.strictIgnoreBlocksPayload = false)) :
    inspect limits web root f = .ignored .pattern :=
  if_pos (blocked_iff.2 ⟨hignored, hblocked⟩)

theorem inspect_of_unwanted
    (hkept : ¬(Ignored limits root f ∧
      ¬(Payload limits web root f ∧ limits.strictIgnoreBlocksPayload = false)))
    (hunwanted : ¬Admitted limits web root f) : inspect limits web root f = .skipped := by
  unfold inspect
  dsimp only
  rw [if_neg (blocked_iff.not.2 hkept), if_pos]
  rw [Bool.not_eq_true', ← Bool.not_eq_true, wanted_iff]
  intro hwanted
  exact hunwanted ⟨by tauto, hwanted⟩

theorem Admitted.not_blocked (h : Admitted limits web root f) : ¬(Ignored limits root f ∧
    ¬(Payload limits web root f ∧ limits.strictIgnoreBlocksPayload = false)) := by
  rintro ⟨hignored, hblocked⟩
  exact h.kept.elim (fun hkept => hkept hignored) hblocked

theorem Admitted.inspect_of_over (h : Admitted limits web root f) (hweb : web = true)
    {why : IgnoreReason} (hover : Over limits f why) :
    inspect limits web root f = .ignored why := by
  have hwanted := wanted_iff.2 h.wanted
  unfold inspect
  dsimp only
  rw [if_neg (blocked_iff.not.2 h.not_blocked), hwanted, if_pos hweb,
    overSize?_eq_some_iff.2 hover]
  rfl

theorem Eligible.inspect_eq (h : Eligible limits web root f) :
    inspect limits web root f = .chosen (candidate limits web root f) := by
  have hwanted := wanted_iff.2 h.admitted.wanted
  have hcap : (if web then overSize? limits (extensionOf f) f.content.size else none) = none := by
    split
    case isTrue hweb => exact overSize?_eq_none_iff.2 (h.fits hweb)
    case isFalse => rfl
  unfold inspect
  dsimp only
  rw [if_neg (blocked_iff.not.2 h.admitted.not_blocked), hwanted, hcap]
  rfl

theorem dropped_or_skipped_or_eligible (limits : ScanLimits) (web : Bool) (root : Path)
    (f : FoundFile) :
    (∃ why, DroppedFor limits web root f why) ∨
      inspect limits web root f = .skipped ∨ Eligible limits web root f := by
  by_cases hblocked : Ignored limits root f ∧
      ¬(Payload limits web root f ∧ limits.strictIgnoreBlocksPayload = false)
  · exact .inl ⟨_, .pattern hblocked.1 hblocked.2⟩
  by_cases hadmitted : Admitted limits web root f
  · by_cases hcap : ∃ why, web = true ∧ Over limits f why
    · obtain ⟨why, hweb, hover⟩ := hcap
      exact .inl ⟨why, .cap hadmitted hweb hover⟩
    · refine .inr (.inr ⟨hadmitted, fun hweb => overSize?_eq_none_iff.1 ?_⟩)
      rw [Option.eq_none_iff_forall_ne_some]
      exact fun why h => hcap ⟨why, hweb, overSize?_eq_some_iff.1 h⟩
  · exact .inr (.inl (inspect_of_unwanted hblocked hadmitted))

theorem DroppedFor.inspect_eq {why : IgnoreReason} (h : DroppedFor limits web root f why) :
    inspect limits web root f = .ignored why := by
  cases h with
  | pattern hignored hblocked => exact inspect_of_blocked hignored hblocked
  | cap hadmitted hweb hover => exact hadmitted.inspect_of_over hweb hover

theorem inspect_eq_chosen_iff {c : Candidate} :
    inspect limits web root f = .chosen c ↔
      Eligible limits web root f ∧ candidate limits web root f = c := by
  constructor
  · intro h
    obtain ⟨why, hdropped⟩ | hskipped | heligible :=
      dropped_or_skipped_or_eligible limits web root f
    · cases hdropped.inspect_eq.symm.trans h
    · cases hskipped.symm.trans h
    · cases heligible.inspect_eq.symm.trans h
      exact ⟨heligible, rfl⟩
  · rintro ⟨heligible, rfl⟩
    exact heligible.inspect_eq

theorem inspect_eq_ignored_iff {why : IgnoreReason} :
    inspect limits web root f = .ignored why ↔ DroppedFor limits web root f why := by
  constructor
  · intro h
    obtain ⟨why', hdropped⟩ | hskipped | heligible :=
      dropped_or_skipped_or_eligible limits web root f
    · cases hdropped.inspect_eq.symm.trans h
      exact hdropped
    · cases hskipped.symm.trans h
    · cases heligible.inspect_eq.symm.trans h
  · exact DroppedFor.inspect_eq

/-- What the search is to give for the files below a directory: the files that are chosen, and
those that are dropped with the reasons. -/
structure Selection (limits : ScanLimits) (web : Bool) (root : Path)
    (entries : List (String × Entry)) (chosen : List FoundFile)
    (dropped : List (FoundFile × IgnoreReason)) : Prop where
  mem_chosen : ∀ f, f ∈ chosen ↔ (Entry.dir entries).Reaches f ∧ Eligible limits web root f
  mem_dropped : ∀ f why, (f, why) ∈ dropped ↔
    (Entry.dir entries).Reaches f ∧ DroppedFor limits web root f why
  chosen_once : (chosen.map FoundFile.parts).Nodup
  dropped_once : (dropped.map fun e => e.1.parts).Nodup
  ordered : chosen.Pairwise fun a b => walksBefore a.parts b.parts = true

/-- The reason for which a decision leaves a file out. -/
def Decision.reason? : Decision → Option IgnoreReason
  | .ignored why => some why
  | _ => none

def chosenOf (limits : ScanLimits) (web : Bool) (root : Path) (files : List FoundFile) :
    List FoundFile :=
  files.filter fun f => (inspect limits web root f).candidate?.isSome

def droppedOf (limits : ScanLimits) (web : Bool) (root : Path) (files : List FoundFile) :
    List (FoundFile × IgnoreReason) :=
  files.filterMap fun f => (inspect limits web root f).reason?.map (f, ·)

theorem mem_chosenOf {files : List FoundFile} :
    f ∈ chosenOf limits web root files ↔ f ∈ files ∧ Eligible limits web root f := by
  rw [chosenOf, List.mem_filter]
  apply and_congr_right
  intro _
  constructor
  · intro h
    cases hd : inspect limits web root f with
    | chosen c => exact (inspect_eq_chosen_iff.1 hd).1
    | skipped => rw [hd] at h; cases h
    | ignored why => rw [hd] at h; cases h
  · intro h
    rw [h.inspect_eq]
    rfl

theorem mem_droppedOf {files : List FoundFile} {why : IgnoreReason} :
    (f, why) ∈ droppedOf limits web root files ↔ f ∈ files ∧ DroppedFor limits web root f why := by
  rw [droppedOf, List.mem_filterMap]
  constructor
  · rintro ⟨g, hg, hmap⟩
    obtain ⟨_, hreason, ⟨⟩⟩ := Option.map_eq_some_iff.1 hmap
    refine ⟨hg, inspect_eq_ignored_iff.1 ?_⟩
    cases hd : inspect limits web root f with
    | ignored => rw [hd] at hreason; cases hreason; rfl
    | skipped => rw [hd] at hreason; cases hreason
    | chosen => rw [hd] at hreason; cases hreason
  · rintro ⟨hf, hdropped⟩
    exact ⟨f, hf, by rw [hdropped.inspect_eq]; rfl⟩

theorem filterMap_candidate? (files : List FoundFile) :
    files.filterMap (fun f => (inspect limits web root f).candidate?) =
      (chosenOf limits web root files).map (candidate limits web root) := by
  unfold chosenOf
  induction files with
  | nil => rfl
  | cons f rest ih =>
    rw [List.filterMap_cons, List.filter_cons, ih]
    cases hd : inspect limits web root f with
    | chosen c => rw [← (inspect_eq_chosen_iff.1 hd).2]; rfl
    | skipped => rfl
    | ignored why => rfl

theorem filterMap_event? (files : List FoundFile) :
    files.filterMap (fun f => (inspect limits web root f).event? root f) =
      (droppedOf limits web root files).map
        fun e => Event.fileIgnored (pathOf root e.1).text e.2 := by
  rw [droppedOf, List.map_filterMap]
  congr 1
  funext f
  cases inspect limits web root f <;> rfl

theorem discover_eq (limits : ScanLimits) (web : Bool) (t : FileTree) (root : Path) :
    let r := t.resolve root
    let chosen := chosenOf limits web r (t.walk r)
    discover limits web t root =
      (chosen.map (candidate limits web r),
        (droppedOf limits web r (t.walk r)).map
          (fun e => Event.fileIgnored (pathOf r e.1).text e.2) ++ [.filesFound chosen.length]) := by
  intro r chosen
  unfold discover
  simp only [List.filterMap_map, Function.comp_def]
  rw [filterMap_candidate?, filterMap_event?, List.length_map]

theorem selection_walk {entries : List (String × Entry)} (proper : t.root.Proper)
    (he : t.entry root = .ok (.dir entries)) :
    Selection limits web root entries (chosenOf limits web root (t.walk root))
      (droppedOf limits web root (t.walk root)) where
  mem_chosen f := by rw [mem_chosenOf, FileTree.mem_walk_iff proper he, Entry.Reaches]
  mem_dropped f why := by rw [mem_droppedOf, FileTree.mem_walk_iff proper he, Entry.Reaches]
  chosen_once := (List.filter_sublist.map _).nodup (FileTree.nodup_walk proper)
  dropped_once := by
    have distinct := FileTree.nodup_walk (p := root) proper
    rw [List.nodup_iff_pairwise_ne, List.pairwise_map] at distinct ⊢
    apply distinct.filterMap
    intro f g hne e hf e' hg
    obtain ⟨_, -, rfl⟩ := Option.map_eq_some_iff.1 hf
    obtain ⟨_, -, rfl⟩ := Option.map_eq_some_iff.1 hg
    exact hne
  ordered := by
    rw [FileTree.walk_dir he]
    exact (FileTree.pairwise_sorted _).filter _

/-- A window too large for one read is asked for where some file is searched for a payload. -/
def TooLarge (limits : ScanLimits) (web : Bool) (root : Path) (entries : List (String × Entry)) :
    Prop :=
  maxRead < window limits web ∧ ∃ f, (Entry.dir entries).Reaches f ∧ Sniffed limits root f

theorem tooLarge_iff {entries : List (String × Entry)} (proper : t.root.Proper)
    (he : t.entry root = .ok (.dir entries)) :
    (decide (maxRead < window limits web) && (t.walk root).any (isSniffed limits root)) = true ↔
      TooLarge limits web root entries := by
  simp only [Bool.and_eq_true, decide_eq_true_eq, List.any_eq_true, isSniffed_iff,
    FileTree.mem_walk_iff proper he, TooLarge, Entry.Reaches]

theorem search_relist {other : Entry} (proper : t.root.Proper) (h : t.root.Relisted other) :
    search limits web (t.relist other) root = search limits web t root := by
  unfold search discover
  simp only [FileTree.resolve_relist h proper, FileTree.walk_relist h proper]

/-- The search of a directory gives the eligible files that directories alone lead to, and tells of
those that are dropped, whatever the order of listings; it fails just where a window is too large
for a read. -/
theorem search_exact (limits : ScanLimits) (web : Bool) (t : FileTree) (root : Path)
    (entries : List (String × Entry)) (proper : t.root.Proper)
    (readable : t.entry (t.resolve root) = .ok (.dir entries)) :
    let r := t.resolve root
    (TooLarge limits web r entries →
      search limits web t root = .error (.oversizedRead (window limits web))) ∧
    (¬TooLarge limits web r entries → ∃ chosen dropped,
      Selection limits web r entries chosen dropped ∧
      search limits web t root = .ok (chosen.map (candidate limits web r),
        dropped.map (fun e => .fileIgnored (pathOf r e.1).text e.2) ++
          [.filesFound chosen.length])) ∧
    ∀ other, t.root.Relisted other →
      search limits web (t.relist other) root = search limits web t root := by
  intro r
  refine ⟨fun h => ?_, fun h => ?_, fun other => search_relist proper⟩
  · exact if_pos ((tooLarge_iff proper readable).2 h)
  · refine ⟨_, _, selection_walk proper readable, ?_⟩
    rw [← discover_eq]
    exact if_neg ((tooLarge_iff proper readable).not.2 h)

/-- A directory with a note and a script, both empty. -/
def noteAndScript : List (String × Entry) :=
  [("a.txt", .file ⟨#[]⟩), ("b.php", .file ⟨#[]⟩)]

def smallPlugin : FileTree :=
  ⟨.dir noteAndScript, ⟨1, []⟩⟩

/-- Limits by which scripts are scanned whose size does not exceed a cap. -/
def capped (cap : Int) : ScanLimits :=
  { (default : ScanLimits) with phpExtensions := ["php"], maxWebFileBytes := cap }

theorem smallPlugin_proper : smallPlugin.root.Proper := by
  refine .dir (by decide) fun x hx => ?_
  simp only [noteAndScript, List.mem_cons, List.not_mem_nil, or_false] at hx
  obtain rfl | rfl := hx
  · exact .file _
  · exact .file _

theorem smallPlugin_readable :
    smallPlugin.entry (smallPlugin.resolve ⟨1, []⟩) = .ok (.dir noteAndScript) := by
  cbv

theorem smallPlugin_found : smallPlugin.root.Proper ∧
    ∃ chosen dropped, Selection (capped 5) true ⟨1, []⟩ noteAndScript chosen dropped ∧
      search (capped 5) true smallPlugin ⟨1, []⟩ =
        .ok (chosen.map (candidate (capped 5) true ⟨1, []⟩), dropped.map
          (fun e => .fileIgnored (pathOf ⟨1, []⟩ e.1).text e.2) ++ [.filesFound chosen.length]) := by
  have hwindow : ¬maxRead < window (capped 5) true := by decide
  have hresolve : smallPlugin.resolve ⟨1, []⟩ = ⟨1, []⟩ := by cbv
  obtain ⟨-, hfound, -⟩ := search_exact (capped 5) true smallPlugin ⟨1, []⟩ noteAndScript
    smallPlugin_proper smallPlugin_readable
  rw [hresolve] at hfound
  exact ⟨smallPlugin_proper, hfound fun h => hwindow h.1⟩

/-- With a cap that no read can ask for, the script is eligible, but nothing is found. -/
theorem huge_cap_stops_search :
    ∃ f, (Entry.dir noteAndScript).Reaches f ∧ Eligible (capped 0x8000000000000000) true ⟨1, []⟩ f ∧
      ∀ found, search (capped 0x8000000000000000) true smallPlugin ⟨1, []⟩ ≠ .ok found := by
  have hextension : extensionOf ⟨["b.php"], ⟨#[]⟩⟩ = "php" := by cbv
  have hscript : extensionOf ⟨["b.php"], ⟨#[]⟩⟩ ∈ (capped 0x8000000000000000).phpExtensions :=
    hextension ▸ List.mem_singleton_self "php"
  have hfails : search (capped 0x8000000000000000) true smallPlugin ⟨1, []⟩ =
      .error (.oversizedRead 0x8000000000000000) := by cbv
  refine ⟨⟨["b.php"], ⟨#[]⟩⟩, rfl, ⟨⟨.inl ?_, .inl hscript⟩, fun _ => ⟨?_, ?_⟩⟩, fun found h => ?_⟩
  · rw [← isIgnored_iff]
    exact Bool.false_ne_true
  · rintro cap ⟨⟩
  · rintro ⟨-, h⟩
    exact absurd h (by decide)
  · rw [hfails] at h
    cases h

end Discovery

end PluginAudit
