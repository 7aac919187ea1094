import PluginAudit.Proofs.Casing
import PluginAudit.Proofs.DiscoveredFiles

namespace PluginAudit.Discovery

variable {limits : ScanLimits} {web : Bool} {t : FileTree} {root : Path} {f : FoundFile}

theorem toList_loop_eq (bytes : ByteArray) (i : Nat) (acc : List UInt8) :
    ByteArray.toList.loop bytes i acc = acc.reverse ++ bytes.data.toList.drop i := by
  fun_induction ByteArray.toList.loop bytes i acc with
  | case1 i acc hi ih =>
    have hlength : i < bytes.data.toList.length := hi
    have hget : bytes.get! i = bytes.data.toList[i] := getElem!_pos bytes.data i hi
    rw [ih, List.drop_eq_getElem_cons hlength, hget]
    simp
  | case2 i acc hi =>
    have hlength : bytes.data.toList.length ≤ i := Nat.le_of_not_lt hi
    rw [List.drop_of_length_le hlength, List.append_nil]

theorem toList_toByteArray (bytes : List UInt8) : bytes.toByteArray.toList = bytes := by
  rw [ByteArray.toList, toList_loop_eq, List.data_toByteArray]
  rfl

/-- PHP code begins with it. -/
def IsOpeningTag (tag : String) : Prop :=
  tag.map Char.toLower = "<?php" ∨ tag = "<?="

/-- An opening tag stands somewhere among the bytes. -/
def HoldsTag (bytes : List UInt8) : Prop :=
  ∃ tag, IsOpeningTag tag ∧ bytesOf tag <:+: bytes

theorem occurs_iff {mark bytes : List UInt8} : occurs mark bytes = true ↔ mark <:+: bytes := by
  induction bytes with
  | nil => rw [occurs, List.isEmpty_iff, List.infix_nil]
  | cons b rest ih =>
    rw [occurs, Bool.or_eq_true, List.isPrefixOf_iff_prefix, ih, List.infix_cons_iff]

theorem bytesOf_eq (s : String) : bytesOf s = s.toList.flatMap String.utf8EncodeChar := by
  have hbytes : s.toUTF8 = (s.toList.flatMap String.utf8EncodeChar).toByteArray := by
    conv_lhs => rw [← String.ofList_toList (s := s)]
    rfl
  rw [bytesOf, hbytes, toList_toByteArray]

theorem map_lowerByte_bytesOf {s : String} (hs : ∀ c ∈ s.toList, c.toNat < 128) :
    (bytesOf s).map lowerByte = bytesOf (s.map Char.toLower) := by
  have hchar : ∀ c : Char, c.toNat < 128 →
      (String.utf8EncodeChar c).map lowerByte = String.utf8EncodeChar c.toLower := by
    intro c hc
    exact Text.ascii_forall (P := fun c =>
      (String.utf8EncodeChar c).map lowerByte = String.utf8EncodeChar c.toLower) (by decide +kernel) hc
  rw [bytesOf_eq, bytesOf_eq, String.toList_map, List.map_flatMap, List.flatMap_map]
  apply List.flatMap_congr
  intro c hc
  exact hchar c (hs c hc)

theorem IsOpeningTag.bytesOf {tag : String} (h : IsOpeningTag tag) :
    (bytesOf tag).map lowerByte = bytesOf "<?php" ∨ bytesOf tag = bytesOf "<?=" := by
  obtain htag | rfl := h
  · have hascii : ∀ c ∈ tag.toList, c.toNat < 128 := by
      intro c hc
      by_contra hle
      have hmem : c.toLower ∈ "<?php".toList := by
        rw [← htag, String.toList_map]
        exact List.mem_map_of_mem hc
      rw [Text.toLower_of_le (Nat.le_of_not_lt hle)] at hmem
      have hphp : ∀ d ∈ "<?php".toList, d.toNat < 128 := by simp
      exact hle (hphp c hmem)
    left
    rw [map_lowerByte_bytesOf hascii, htag]
  · exact .inr rfl

theorem HoldsTag.hasPayload {bytes : List UInt8} (h : HoldsTag bytes) (shortTags : Bool) :
    hasPayload shortTags bytes = true := by
  obtain ⟨tag, htag, hinside⟩ := h
  have hoccurs : occurs (bytesOf "<?php") (bytes.map lowerByte) = true ∨
      occurs (bytesOf "<?=") bytes = true := by
    obtain hlower | hshort := htag.bytesOf
    · left
      rw [occurs_iff, ← hlower]
      exact hinside.map lowerByte
    · right
      rw [occurs_iff, ← hshort]
      exact hinside
  rw [Discovery.hasPayload, Bool.or_eq_true, Bool.or_eq_true, Bool.or_eq_true]
  exact .inl (.inl hoccurs)

/-- A file that does not exceed the cap for all files is searched as a whole. -/
theorem extract_window (h : (f.content.size : Int) ≤ limits.maxWebFileBytes) :
    f.content.extract 0 (window limits true) = f.content := by
  have hwindow : f.content.size ≤ window limits true := by
    rw [window, if_pos rfl]
    omega
  rw [← Nat.max_eq_left hwindow, ByteArray.extract_zero_max_size]

theorem sniff_of_holdsTag (hsize : (f.content.size : Int) ≤ limits.maxWebFileBytes)
    (htag : HoldsTag f.content.toList) : sniff limits true f = true := by
  rw [sniff, extract_window hsize]
  exact htag.hasPayload limits.shortOpenTags

/-- A file in which a payload would be found is not skipped. If it is not searched it is a script. -/
theorem dropped_or_eligible (hsniff : sniff limits web f = true) :
    (∃ why, DroppedFor limits web root f why) ∨ Eligible limits web root f := by
  have hwanted : extensionOf f ∈ limits.phpExtensions ∨ DoubleExtension limits f.name ∨
      Payload limits web root f ∨ limits.includeNonPhp = true := by
    by_cases hscript : extensionOf f ∈ limits.phpExtensions
    · exact .inl hscript
    · exact .inr (.inr (.inl ⟨.inl hscript, hsniff⟩))
  obtain hdropped | hskipped | heligible := dropped_or_skipped_or_eligible limits web root f
  · exact .inl hdropped
  · unfold inspect at hskipped
    dsimp only at hskipped
    rw [wanted_iff.2 hwanted, Bool.not_true, if_neg Bool.false_ne_true] at hskipped
    split at hskipped
    · cases hskipped
    · split at hskipped <;> cases hskipped
  · exact .inr heligible

/-- In web context a file with an opening tag that does not exceed the cap for all files is scanned, or
it is told that it is ignored, whatever it is called and whatever is ignored. -/
theorem tagged_file_noticed (limits : ScanLimits) (t : FileTree) (root : Path)
    (entries : List (String × Entry)) (proper : t.root.Proper)
    (readable : t.entry (t.resolve root) = .ok (.dir entries)) {f : FoundFile}
    (hreaches : (Entry.dir entries).Reaches f)
    (hsize : (f.content.size : Int) ≤ limits.maxWebFileBytes) (htag : HoldsTag f.content.toList) :
    let r := t.resolve root
    (TooLarge limits true r entries →
      search limits true t root = .error (.oversizedRead (window limits true))) ∧
    (¬TooLarge limits true r entries → ∃ found, search limits true t root = .ok found ∧
      ((∃ c ∈ found.1, c.path = pathOf r f) ∨
        ∃ why, Event.fileIgnored (pathOf r f).text why ∈ found.2)) := by
  intro r
  constructor
  · intro hlarge
    exact if_pos ((tooLarge_iff proper readable).2 hlarge)
  · intro hfits
    have hsearch : search limits true t root = .ok (discover limits true t root) :=
      if_neg ((tooLarge_iff proper readable).not.2 hfits)
    have hselection : Selection limits true r entries _ _ := selection_walk proper readable
    refine ⟨_, hsearch, ?_⟩
    rw [discover_eq]
    obtain ⟨why, hdropped⟩ | heligible :=
      @dropped_or_eligible limits true r f (sniff_of_holdsTag hsize htag)
    · right
      refine ⟨why, List.mem_append_left _ ?_⟩
      exact List.mem_map.2 ⟨(f, why), (hselection.mem_dropped f why).2 ⟨hreaches, hdropped⟩, rfl⟩
    · left
      refine ⟨candidate limits true r f, ?_, rfl⟩
      exact List.mem_map_of_mem ((hselection.mem_chosen f).2 ⟨hreaches, heligible⟩)

/-- A directory with a note in which a tag stands. -/
def taggedNote : List (String × Entry) :=
  [("a.txt", .file "#<?PHP".toUTF8)]

def notePlugin : FileTree :=
  ⟨.dir taggedNote, ⟨1, []⟩⟩

theorem notePlugin_proper : notePlugin.root.Proper := by
  refine .dir (by decide) fun x hx => ?_
  rw [List.mem_singleton.1 hx]
  exact .file _

theorem notePlugin_readable : notePlugin.entry (notePlugin.resolve ⟨1, []⟩) = .ok (.dir taggedNote) := by
  cbv

theorem holdsTag_note : HoldsTag "#<?PHP".toUTF8.toList := by
  have hinside : bytesOf "<?PHP" <:+: bytesOf "#<?PHP" := by
    rw [bytesOf_eq, bytesOf_eq]
    decide
  exact ⟨"<?PHP", .inl (by cbv), hinside⟩

/-- The cap is the size of the note. -/
theorem note_noticed :
    (Entry.dir taggedNote).Reaches ⟨["a.txt"], "#<?PHP".toUTF8⟩ ∧
    HoldsTag "#<?PHP".toUTF8.toList ∧
    ∃ found, search (capped 6) true notePlugin ⟨1, []⟩ = .ok found ∧
      ((∃ c ∈ found.1, c.path = ⟨1, ["a.txt"]⟩) ∨
        ∃ why, Event.fileIgnored "/a.txt" why ∈ found.2) := by
  have hresolve : notePlugin.resolve ⟨1, []⟩ = ⟨1, []⟩ := by cbv
  have hwindow : ¬maxRead < window (capped 6) true := by decide
  have hpath : (pathOf ⟨1, []⟩ ⟨["a.txt"], "#<?PHP".toUTF8⟩).text = "/a.txt" := by cbv
  have hreaches : (Entry.dir taggedNote).Reaches ⟨["a.txt"], "#<?PHP".toUTF8⟩ := rfl
  have hsize : (("#<?PHP".toUTF8.size : Nat) : Int) ≤ (capped 6).maxWebFileBytes := by decide
  obtain ⟨-, hfound⟩ := tagged_file_noticed (capped 6) notePlugin ⟨1, []⟩ taggedNote
    notePlugin_proper notePlugin_readable hreaches hsize holdsTag_note
  rw [hresolve, hpath] at hfound
  exact ⟨hreaches, holdsTag_note, hfound fun h => hwindow h.1⟩

/-- With a cap that no read can ask for, nothing is said of a note far below the cap. -/
theorem huge_cap_hides_tag :
    ∃ f, (Entry.dir taggedNote).Reaches f ∧
      (f.content.size : Int) ≤ (capped 0x8000000000000000).maxWebFileBytes ∧
      HoldsTag f.content.toList ∧
      ∀ found, search (capped 0x8000000000000000) true notePlugin ⟨1, []⟩ ≠ .ok found := by
  have hfails : search (capped 0x8000000000000000) true notePlugin ⟨1, []⟩ =
      .error (.oversizedRead 0x8000000000000000) := by cbv
  refine ⟨⟨["a.txt"], "#<?PHP".toUTF8⟩, rfl, by decide, holdsTag_note, fun found h => ?_⟩
  rw [hfails] at h
  cases h

end PluginAudit.Discovery
