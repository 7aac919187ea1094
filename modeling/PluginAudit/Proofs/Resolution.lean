import PluginAudit.Proofs.FileTrees
import PluginAudit.Proofs.Inheritance
import Mathlib

namespace PluginAudit

namespace Policy

mutual

/-- How the resolution of a mapping ends, `seen` being the names on the way to it. -/
inductive Resolves (t : Sources) :
    List Value → List (Value × Value) → Except Fault (List (Value × Value)) → Prop
  | unnamed {seen data f} : nameOf data = .error f → Resolves t seen data (.error f)
  | circular {seen data name a} : nameOf data = .ok name → a ∈ seen → isSameName a name = true →
      Resolves t seen data (.error (.circularPolicy name.asText))
  | unlisted {seen data name f} : nameOf data = .ok name →
      (∀ a ∈ seen, isSameName a name = false) →
      textList (Value.lookup "inherit" data) = .error f → Resolves t seen data (.error f)
  | stuck {seen data name refs f} : nameOf data = .ok name →
      (∀ a ∈ seen, isSameName a name = false) →
      textList (Value.lookup "inherit" data) = .ok refs →
      ResolvesAll t (name :: seen) [] refs (.error f) → Resolves t seen data (.error f)
  | merged {seen data name refs inherited} : nameOf data = .ok name →
      (∀ a ∈ seen, isSameName a name = false) →
      textList (Value.lookup "inherit" data) = .ok refs →
      ResolvesAll t (name :: seen) [] refs (.ok inherited) →
      Resolves t seen data (.ok (merge inherited data))

/-- How the resolution of references ends, each merged on top of those before. -/
inductive ResolvesAll (t : Sources) : List Value → List (Value × Value) → List String →
    Except Fault (List (Value × Value)) → Prop
  | done {seen start} : ResolvesAll t seen start [] (.ok start)
  | unreadable {seen start ref refs f} : readRef t ref = .error f →
      ResolvesAll t seen start (ref :: refs) (.error f)
  | failed {seen start ref refs m f} : readRef t ref = .ok m → Resolves t seen m (.error f) →
      ResolvesAll t seen start (ref :: refs) (.error f)
  | next {seen start ref refs m r outcome} : readRef t ref = .ok m → Resolves t seen m (.ok r) →
      ResolvesAll t seen (merge start r) refs outcome →
      ResolvesAll t seen start (ref :: refs) outcome

end

variable {t : Sources} {seen : List Value} {start data : List (Value × Value)}
  {refs : List String} {fuel : Nat}

/-- The references one after the other, within a bound. -/
def resolveRefs (t : Sources) (fuel : Nat) (seen : List Value) (start : List (Value × Value))
    (refs : List String) : Except Fault (List (Value × Value)) :=
  refs.foldlM (fun merged ref => do
    return merge merged (← resolve t fuel seen (← readRef t ref))) start

theorem resolveRefs_nil : resolveRefs t fuel seen start [] = .ok start := rfl

theorem resolveRefs_unreadable {ref : String} {f : Fault} (h : readRef t ref = .error f) :
    resolveRefs t fuel seen start (ref :: refs) = .error f := by
  simp [resolveRefs, h, bind, Except.bind]

theorem resolveRefs_failed {ref : String} {m : List (Value × Value)} {f : Fault}
    (hm : readRef t ref = .ok m) (hr : resolve t fuel seen m = .error f) :
    resolveRefs t fuel seen start (ref :: refs) = .error f := by
  simp [resolveRefs, hm, hr, bind, Except.bind]

theorem resolveRefs_next {ref : String} {m r : List (Value × Value)}
    (hm : readRef t ref = .ok m) (hr : resolve t fuel seen m = .ok r) :
    resolveRefs t fuel seen start (ref :: refs) =
      resolveRefs t fuel seen (merge start r) refs := by
  simp [resolveRefs, hm, hr, bind, Except.bind, pure, Except.pure]

theorem resolve_circular {name a : Value} (hname : nameOf data = .ok name) (ha : a ∈ seen)
    (hsame : isSameName a name = true) :
    resolve t (fuel + 1) seen data = .error (.circularPolicy name.asText) := by
  have again : seen.any (fun a => isSameName a name) = true := List.any_eq_true.2 ⟨a, ha, hsame⟩
  simp [resolve, hname, again, bind, Except.bind]

theorem resolve_unlisted {name : Value} {f : Fault} (hname : nameOf data = .ok name)
    (hnew : ∀ a ∈ seen, isSameName a name = false)
    (hrefs : textList (Value.lookup "inherit" data) = .error f) :
    resolve t (fuel + 1) seen data = .error f := by
  have new : seen.any (fun a => isSameName a name) = false := by simpa using hnew
  simp [resolve, hname, new, hrefs, bind, Except.bind]

theorem resolve_listed {name : Value} (hname : nameOf data = .ok name)
    (hnew : ∀ a ∈ seen, isSameName a name = false)
    (hrefs : textList (Value.lookup "inherit" data) = .ok refs) :
    resolve t (fuel + 1) seen data =
      (resolveRefs t fuel (name :: seen) [] refs).map fun inherited => merge inherited data := by
  have new : seen.any (fun a => isSameName a name) = false := by simpa using hnew
  simp only [resolve, hname, new, hrefs, resolveRefs, bind, Except.bind]
  rfl

/-- Whatever is resolved is resolved within some bound. -/
theorem Resolves.resolve_eq {r : Except Fault (List (Value × Value))}
    (h : Resolves t seen data r) : ∃ bound, ∀ fuel ≥ bound, resolve t fuel seen data = r := by
  induction h using Resolves.rec
    (motive_2 := fun seen start refs r _ =>
      ∃ bound, ∀ fuel ≥ bound, resolveRefs t fuel seen start refs = r) with
  | unnamed hname =>
    refine ⟨0, fun fuel _ => ?_⟩
    cases fuel <;> simp [resolve, hname, bind, Except.bind]
  | circular hname ha hsame =>
    refine ⟨1, fun fuel hfuel => ?_⟩
    obtain ⟨less, rfl⟩ := Nat.exists_eq_add_of_le' hfuel
    exact resolve_circular hname ha hsame
  | unlisted hname hnew hrefs =>
    refine ⟨1, fun fuel hfuel => ?_⟩
    obtain ⟨less, rfl⟩ := Nat.exists_eq_add_of_le' hfuel
    exact resolve_unlisted hname hnew hrefs
  | stuck hname hnew hrefs _ ih =>
    obtain ⟨bound, hbound⟩ := ih
    refine ⟨bound + 1, fun fuel hfuel => ?_⟩
    obtain ⟨less, rfl⟩ := Nat.exists_eq_add_of_le' (Nat.le_of_add_left_le hfuel)
    rw [resolve_listed hname hnew hrefs, hbound less (by omega)]
    rfl
  | merged hname hnew hrefs _ ih =>
    obtain ⟨bound, hbound⟩ := ih
    refine ⟨bound + 1, fun fuel hfuel => ?_⟩
    obtain ⟨less, rfl⟩ := Nat.exists_eq_add_of_le' (Nat.le_of_add_left_le hfuel)
    rw [resolve_listed hname hnew hrefs, hbound less (by omega)]
    rfl
  | done => exact ⟨0, fun fuel _ => resolveRefs_nil⟩
  | unreadable hm => exact ⟨0, fun fuel _ => resolveRefs_unreadable hm⟩
  | failed hm _ ih =>
    obtain ⟨bound, hbound⟩ := ih
    exact ⟨bound, fun fuel hfuel => resolveRefs_failed hm (hbound fuel hfuel)⟩
  | next hm _ _ ih ihrest =>
    obtain ⟨bound, hbound⟩ := ih
    obtain ⟨bound', hbound'⟩ := ihrest
    refine ⟨bound + bound', fun fuel hfuel => ?_⟩
    rw [resolveRefs_next hm (hbound fuel (by omega)), hbound' fuel (by omega)]

theorem isSameName_self {name : Value} (h : nameOf data = .ok name) :
    isSameName name name = true := by
  unfold nameOf at h
  generalize (Value.lookup "name" data).getD (.text "unnamed") = given at h
  cases given with
  | list => cases h
  | map => cases h
  | float x =>
    cases h
    by_cases hx : x.isIntegral <;> by_cases hn : x.isNaN <;>
      simp [isSameName, Value.same, Value.same.sameAsNumber, Value.number?, Value.sameNumber, hx, hn]
  | _ =>
    cases h
    simp [isSameName, Value.same, Value.same.sameAsNumber, Value.number?, Value.sameNumber]

/-- The mapping that is written in a file. -/
def mappingOf? (t : Sources) (content : ByteArray) : Option (List (Value × Value)) :=
  match Text.decodeStrict content with
  | .ok s => (readMapping t (Text.withNewlines s)).toOption
  | .error _ => none

/-- All mappings that references can lead to. -/
def readable (t : Sources) : List (List (Value × Value)) :=
  t.files.root.contents.filterMap (mappingOf? t) ++ presets.filterMap fun e => mapping? e.2

theorem length_readable_le (t : Sources) :
    (readable t).length ≤ t.files.root.fileCount + presets.length := by
  have files := List.length_filterMap_le (mappingOf? t) t.files.root.contents
  have given := List.length_filterMap_le (fun e => mapping? e.2) presets
  rw [t.files.root.length_contents] at files
  rw [readable, List.length_append]
  omega

theorem preset_mem_readable {e : String × Value} {m : List (Value × Value)} (he : e ∈ presets)
    (hm : mapping? e.2 = some m) : m ∈ readable t :=
  List.mem_append_right _ (List.mem_filterMap.2 ⟨e, he, hm⟩)

theorem mem_readable_of_readPath {path : Path} {m : List (Value × Value)}
    (h : readPath t path = .ok m) : m ∈ readable t := by
  unfold readPath at h
  split at h
  case h_1 entries hpreset =>
    cases h
    obtain ⟨e, he, hentries⟩ := List.exists_of_findSome?_eq_some hpreset
    split at hentries
    case isTrue => exact preset_mem_readable he hentries
    case isFalse => cases hentries
  case h_2 =>
    obtain ⟨text, htext, hm⟩ := bind_eq_ok h
    obtain ⟨content, hread, htext⟩ := bind_eq_ok htext
    refine List.mem_append_left _
      (List.mem_filterMap.2 ⟨content, FileTree.mem_contents_of_read hread, ?_⟩)
    split at htext
    case h_1 s hs =>
      cases htext
      rw [mappingOf?, hs]
      simp only [hm, Except.toOption]
    case h_2 => cases htext

theorem mem_readable {ref : String} {m : List (Value × Value)} (h : readRef t ref = .ok m) :
    m ∈ readable t := by
  unfold readRef at h
  split at h
  case h_1 name hname =>
    unfold readPreset at h
    split at h
    case h_1 entries hfind =>
      cases h
      obtain ⟨v, hv, hentries⟩ := Option.bind_eq_some_iff.1 hfind
      exact preset_mem_readable (Table.mem_of_find? hv) hentries
    case h_2 =>
      dsimp only at h
      split at h
      case isTrue => exact mem_readable_of_readPath h
      case isFalse => cases h
  case h_2 => exact mem_readable_of_readPath h

/-- The mappings on the way to one, each of which has put its name on it. -/
structure Way (t : Sources) (start : List (Value × Value)) (seen : List Value)
    (path : List (List (Value × Value))) : Prop where
  nodup : path.Nodup
  known : path ⊆ start :: readable t
  named : ∀ m ∈ path, ∃ name ∈ seen, nameOf m = .ok name

theorem Way.step {path : List (List (Value × Value))} {name : Value} (way : Way t start seen path)
    (hdata : data ∈ start :: readable t) (hname : nameOf data = .ok name)
    (hnew : ∀ a ∈ seen, isSameName a name = false) :
    Way t start (name :: seen) (data :: path) := by
  refine ⟨List.nodup_cons.2 ⟨?_, way.nodup⟩, List.cons_subset.2 ⟨hdata, way.known⟩, ?_⟩
  · intro hmem
    obtain ⟨a, ha, hsame⟩ := way.named data hmem
    cases hname.symm.trans hsame
    cases (isSameName_self hname).symm.trans (hnew name ha)
  · intro m hm
    obtain rfl | hm := List.mem_cons.1 hm
    · exact ⟨name, List.mem_cons_self, hname⟩
    · obtain ⟨a, ha, hnamed⟩ := way.named m hm
      exact ⟨a, List.mem_cons_of_mem name ha, hnamed⟩

theorem Way.length_le {path : List (List (Value × Value))} (way : Way t start seen path) :
    path.length ≤ (readable t).length + 1 :=
  (way.nodup.subperm way.known).length_le

theorem resolvesAll_resolveRefs
    (h : ∀ ref m, readRef t ref = .ok m → Resolves t seen m (resolve t fuel seen m)) :
    ResolvesAll t seen start refs (resolveRefs t fuel seen start refs) := by
  induction refs generalizing start with
  | nil => exact .done
  | cons ref refs ih =>
    cases hm : readRef t ref with
    | error f =>
      rw [resolveRefs_unreadable hm]
      exact .unreadable hm
    | ok m =>
      have resolved := h ref m hm
      cases hr : resolve t fuel seen m with
      | error f =>
        rw [resolveRefs_failed hm hr]
        exact .failed hm (hr ▸ resolved)
      | ok r =>
        rw [resolveRefs_next hm hr]
        exact .next hm (hr ▸ resolved) ih

/-- With a bound that no way can exceed, the bound is never met: each step either ends or puts a
new mapping on the way. -/
theorem resolves_resolve {path : List (List (Value × Value))} (way : Way t start seen path)
    (hdata : data ∈ start :: readable t)
    (enough : (readable t).length + 2 ≤ fuel + path.length) :
    Resolves t seen data (resolve t fuel seen data) := by
  induction fuel generalizing seen path data with
  | zero =>
    have := way.length_le
    omega
  | succ fuel ih =>
    cases hname : nameOf data with
    | error f =>
      have failed : resolve t (fuel + 1) seen data = .error f := by
        simp [resolve, hname, bind, Except.bind]
      rw [failed]
      exact .unnamed hname
    | ok name =>
      by_cases hagain : ∃ a ∈ seen, isSameName a name = true
      · obtain ⟨a, ha, hsame⟩ := hagain
        rw [resolve_circular hname ha hsame]
        exact .circular hname ha hsame
      · have hnew : ∀ a ∈ seen, isSameName a name = false := by simpa using hagain
        cases hrefs : textList (Value.lookup "inherit" data) with
        | error f =>
          rw [resolve_unlisted hname hnew hrefs]
          exact .unlisted hname hnew hrefs
        | ok refs =>
          have longer := way.step hdata hname hnew
          have parents : ResolvesAll t (name :: seen) [] refs
              (resolveRefs t fuel (name :: seen) [] refs) := by
            apply resolvesAll_resolveRefs
            intro ref m hm
            apply ih longer (List.mem_cons_of_mem start (mem_readable hm))
            rw [List.length_cons]
            omega
          rw [resolve_listed hname hnew hrefs]
          cases hparents : resolveRefs t fuel (name :: seen) [] refs with
          | error f => exact .stuck hname hnew hrefs (hparents ▸ parents)
          | ok inherited => exact .merged hname hnew hrefs (hparents ▸ parents)

theorem resolves_resolveAll (t : Sources) (data : List (Value × Value)) :
    Resolves t [] data (resolveAll t data) := by
  have way : Way t data [] [] := ⟨List.nodup_nil, List.nil_subset _, by simp⟩
  apply resolves_resolve way List.mem_cons_self
  have := length_readable_le t
  simp only [List.length_nil]
  omega

theorem Resolves.unique {r r' : Except Fault (List (Value × Value))}
    (h : Resolves t seen data r) (h' : Resolves t seen data r') : r = r' := by
  obtain ⟨bound, hbound⟩ := h.resolve_eq
  obtain ⟨bound', hbound'⟩ := h'.resolve_eq
  rw [← hbound (bound + bound') (by omega), hbound' (bound + bound') (by omega)]

theorem resolved_of_resolveRefs {inherited : List (Value × Value)}
    (h : resolveRefs t fuel seen start refs = .ok inherited) :
    ∀ ref ∈ refs, ∃ m r, readRef t ref = .ok m ∧ resolve t fuel seen m = .ok r := by
  induction refs generalizing start with
  | nil => simp
  | cons ref refs ih =>
    cases hm : readRef t ref with
    | error f =>
      rw [resolveRefs_unreadable hm] at h
      cases h
    | ok m =>
      cases hr : resolve t fuel seen m with
      | error f =>
        rw [resolveRefs_failed hm hr] at h
        cases h
      | ok r =>
        rw [resolveRefs_next hm hr] at h
        exact List.forall_mem_cons.2 ⟨⟨m, r, hm, hr⟩, ih h⟩

/-- Below what was resolved there is no endless way of inheritance. -/
theorem acc_of_resolve {r : List (Value × Value)} (h : resolve t fuel seen data = .ok r) :
    Acc (Function.swap (Inherits t)) data := by
  induction fuel generalizing seen data r with
  | zero =>
    obtain ⟨less, -, -, -, hfuel, -⟩ := resolve_cases h
    cases hfuel
  | succ fuel ih =>
    obtain ⟨less, seen', refs, inherited, hfuel, hrefs, hparents, -⟩ := resolve_cases h
    cases hfuel
    constructor
    rintro m ⟨refs', ref, hrefs', href, hm⟩
    cases hrefs.symm.trans hrefs'
    obtain ⟨m', r', hm', hr'⟩ := resolved_of_resolveRefs hparents ref href
    cases hm.symm.trans hm'
    exact ih hr'

theorem not_acc_of_circle {d : List (Value × Value)} (hd : Family t data d)
    (circle : Ancestor t d d) : ¬ Acc (Function.swap (Inherits t)) data := by
  have endless {x : List (Value × Value)}
      (hx : Acc (Relation.TransGen (Function.swap (Inherits t))) x) :
      ¬ Relation.TransGen (Function.swap (Inherits t)) x x := by
    induction hx with
    | intro x _ ih => exact fun hcircle => ih x hcircle hcircle
  intro hacc
  have below : Acc (Function.swap (Inherits t)) d := by
    clear circle
    induction hd with
    | refl => exact hacc
    | tail _ hstep ih => exact ih.inv hstep
  exact endless below.transGen (Relation.transGen_swap.2 circle)

/-- Two mappings, of which one inherits the other, have one name, by which the fault calls it. -/
def Repeats (t : Sources) (data : List (Value × Value)) (f : Fault) : Prop :=
  ∃ d e name again, Family t data d ∧ Ancestor t d e ∧ nameOf d = .ok name ∧
    nameOf e = .ok again ∧ isSameName name again = true ∧ f = .circularPolicy again.asText

/-- What a mapping says of itself cannot be read, or a reference of it cannot. -/
inductive Blocked (t : Sources) (d : List (Value × Value)) : Fault → Prop
  | name {f} : nameOf d = .error f → Blocked t d f
  | refs {f} : textList (Value.lookup "inherit" d) = .error f → Blocked t d f
  | ref {f refs ref} : textList (Value.lookup "inherit" d) = .ok refs → ref ∈ refs →
      readRef t ref = .error f → Blocked t d f

/-- Each name on the way is that of a mapping which inherits `data`. -/
def Above (t : Sources) (start : List (Value × Value)) (seen : List Value)
    (data : List (Value × Value)) : Prop :=
  ∀ a ∈ seen, ∃ d, Family t start d ∧ Ancestor t d data ∧ nameOf d = .ok a

theorem Above.step {m : List (Value × Value)} {name : Value} (above : Above t start seen data)
    (hdata : Family t start data) (hname : nameOf data = .ok name) (hm : Inherits t data m) :
    Above t start (name :: seen) m := by
  intro a ha
  obtain rfl | ha := List.mem_cons.1 ha
  · exact ⟨data, hdata, .single hm, hname⟩
  · obtain ⟨d, hd, hanc, hnamed⟩ := above a ha
    exact ⟨d, hd, hanc.tail hm, hnamed⟩

/-- A resolution fails for a name that comes again, or where something cannot be read. -/
theorem Resolves.cause {r : Except Fault (List (Value × Value))} {f : Fault}
    (h : Resolves t seen data r) (hr : r = .error f) (hdata : Family t start data)
    (above : Above t start seen data) :
    Repeats t start f ∨ ∃ e, Family t start e ∧ Blocked t e f := by
  induction h using Resolves.rec
    (motive_2 := fun seen _ refs r _ => r = .error f → ∀ d rest,
      Family t start d → textList (Value.lookup "inherit" d) = .ok rest → refs ⊆ rest →
      (∀ m, Inherits t d m → Above t start seen m) →
      Repeats t start f ∨ ∃ e, Family t start e ∧ Blocked t e f) with
  | unnamed hname =>
    cases hr
    exact .inr ⟨_, hdata, .name hname⟩
  | circular hname ha hsame =>
    cases hr
    obtain ⟨d, hd, hanc, hnamed⟩ := above _ ha
    exact .inl ⟨d, _, _, _, hd, hanc, hnamed, hname, hsame, rfl⟩
  | unlisted _ _ hrefs =>
    cases hr
    exact .inr ⟨_, hdata, .refs hrefs⟩
  | stuck hname _ hrefs _ ih =>
    exact ih hr _ _ hdata hrefs (List.Subset.refl _) fun m hm => above.step hdata hname hm
  | merged => cases hr
  | done hr => cases hr
  | unreadable hm hr d rest hd hrest hsub _ =>
    cases hr
    exact .inr ⟨d, hd, .ref hrest (hsub List.mem_cons_self) hm⟩
  | failed hm _ ih hr d rest hd hrest hsub habove =>
    have inherits : Inherits t d _ := ⟨rest, _, hrest, hsub List.mem_cons_self, hm⟩
    exact ih hr (hd.tail inherits) (habove _ inherits)
  | next _ _ _ _ ih hr d rest hd hrest hsub habove =>
    exact ih hr d rest hd hrest (List.subset_of_cons_subset hsub) habove

/-- Resolution stops with one outcome whatever inherits what. If a mapping that is reached inherits
itself, it fails: for a name that comes again, unless something before could not be read. -/
theorem resolution_stops (t : Sources) (data : List (Value × Value)) :
    (∀ r, Resolves t [] data r ↔ resolveAll t data = r) ∧
      ∀ d, Family t data d → Ancestor t d d →
        ∃ f, resolveAll t data = .error f ∧
          (Repeats t data f ∨ ∃ e, Family t data e ∧ Blocked t e f) := by
  have resolved := resolves_resolveAll t data
  refine ⟨fun r => ⟨resolved.unique, fun h => h ▸ resolved⟩, fun d hd circle => ?_⟩
  cases h : resolveAll t data with
  | ok r => exact absurd (acc_of_resolve h) (not_acc_of_circle hd circle)
  | error f =>
    exact ⟨f, rfl, resolved.cause h .refl (by simp [Above])⟩

/-- Two policies that inherit each other. -/
def mutualFiles : FileTree :=
  ⟨.dir [("a", .file "{name: a, inherit: b}".toUTF8), ("b", .file "{name: b, inherit: a}".toUTF8)],
    Path.ofText "/"⟩

def mutualPair : Sources :=
  ⟨mutualFiles, Path.ofText "/presets", Yaml.parse⟩

/-- A policy of a given name with one parent. -/
def heir (name parent : String) : List (Value × Value) :=
  [(.text "name", .text name), (.text "inherit", .text parent)]

theorem presetAt?_eq_none {file : Path} (h : file.parts.length ≤ t.presetDir.parts.length) :
    presetAt? t file = none := by
  refine List.findSome?_eq_none_iff.2 fun e _ => if_neg ?_
  intro hfile
  have hlength : file.parts.length = t.presetDir.parts.length + 1 := by
    rw [eq_of_beq hfile, Path.child, List.length_append, List.length_singleton]
  omega

theorem readRef_of_text {ref text : String} {m : List (Value × Value)}
    (hfile : Text.afterHead? ref presetMark = none)
    (hown : presetAt? t (t.files.resolve (Path.ofText ref)) = none)
    (hread : t.files.readText (Path.ofText ref) = .ok text)
    (hparse : t.parse text = .ok (.map m)) : readRef t ref = .ok m := by
  rw [readRef, hfile]
  change readPath t (Path.ofText ref) = _
  rw [readPath, hown, hread]
  change readMapping t text = _
  rw [readMapping, hparse]

set_option maxRecDepth 10000 in
theorem readRef_a : readRef mutualPair "a" = .ok (heir "a" "b") := by
  have hpath : mutualFiles.resolve (Path.ofText "a") = ⟨1, ["a"]⟩ := by cbv
  have hown : presetAt? mutualPair (mutualFiles.resolve (Path.ofText "a")) = none :=
    presetAt?_eq_none (by rw [hpath]; decide)
  have hread : mutualFiles.readText (Path.ofText "a") = .ok "{name: a, inherit: b}" := by cbv
  have hparse : Yaml.parse "{name: a, inherit: b}" = .ok (.map (heir "a" "b")) := by cbv
  exact readRef_of_text rfl hown hread hparse

set_option maxRecDepth 10000 in
theorem readRef_b : readRef mutualPair "b" = .ok (heir "b" "a") := by
  have hpath : mutualFiles.resolve (Path.ofText "b") = ⟨1, ["b"]⟩ := by cbv
  have hown : presetAt? mutualPair (mutualFiles.resolve (Path.ofText "b")) = none :=
    presetAt?_eq_none (by rw [hpath]; decide)
  have hread : mutualFiles.readText (Path.ofText "b") = .ok "{name: b, inherit: a}" := by cbv
  have hparse : Yaml.parse "{name: b, inherit: a}" = .ok (.map (heir "b" "a")) := by cbv
  exact readRef_of_text rfl hown hread hparse

theorem inherits_heir {name parent : String} {m : List (Value × Value)}
    (h : readRef t parent = .ok m) : Inherits t (heir name parent) m :=
  ⟨[parent], parent, rfl, List.mem_singleton_self parent, h⟩

theorem mutual_pair_fails :
    Family mutualPair (heir "c" "a") (heir "a" "b") ∧
      Ancestor mutualPair (heir "a" "b") (heir "a" "b") ∧
      ∃ f, resolveAll mutualPair (heir "c" "a") = .error f ∧
        (Repeats mutualPair (heir "c" "a") f ∨
          ∃ e, Family mutualPair (heir "c" "a") e ∧ Blocked mutualPair e f) := by
  have reached : Family mutualPair (heir "c" "a") (heir "a" "b") :=
    .single (inherits_heir readRef_a)
  have circle : Ancestor mutualPair (heir "a" "b") (heir "a" "b") :=
    .tail (.single (inherits_heir readRef_b)) (inherits_heir readRef_a)
  exact ⟨reached, circle, (resolution_stops mutualPair (heir "c" "a")).2 _ reached circle⟩

end Policy

end PluginAudit
