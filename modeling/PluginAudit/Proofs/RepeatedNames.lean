import PluginAudit.Proofs.Resolution

namespace PluginAudit.Policy

/-- The walk through the parents, in the order of their references, comes to a policy with the name
of one above it. Whatever was referred to before has been resolved by then. -/
inductive Clashes (t : Sources) : List Value → List (Value × Value) → String → Prop
  | here {seen data name a} : nameOf data = .ok name → a ∈ seen → isSameName a name = true →
      Clashes t seen data name.asText
  | through {seen data name before ref after m s} : nameOf data = .ok name →
      (∀ a ∈ seen, isSameName a name = false) →
      textList (Value.lookup "inherit" data) = .ok (before ++ ref :: after) →
      (∀ r ∈ before, ∃ d x, readRef t r = .ok d ∧ Resolves t (name :: seen) d (.ok x)) →
      readRef t ref = .ok m → Clashes t (name :: seen) m s → Clashes t seen data s

variable {t : Sources} {seen : List Value} {start data : List (Value × Value)}
  {refs : List String} {s : String}

section Faults

theorem nameOf_ne_circular : nameOf data ≠ .error (.circularPolicy s) := by
  unfold nameOf
  split <;> simp

theorem textList_ne_circular (v : Option Value) : textList v ≠ .error (.circularPolicy s) := by
  unfold textList
  split <;> simp

theorem readMapping_ne_circular (text : String) :
    readMapping t text ≠ .error (.circularPolicy s) := by
  unfold readMapping
  split
  case h_3 e _ => cases e <;> simp [Yaml.Error.fault]
  all_goals simp

theorem readText_ne_circular (files : FileTree) (p : Path) :
    files.readText p ≠ .error (.circularPolicy s) := by
  unfold FileTree.readText FileTree.read
  intro h
  split at h
  case h_1 content _ =>
    dsimp only [bind, Except.bind] at h
    split at h <;> cases h
  all_goals cases h

theorem readPath_ne_circular (path : Path) : readPath t path ≠ .error (.circularPolicy s) := by
  unfold readPath
  split
  case h_1 => simp
  case h_2 =>
    intro h
    cases htext : t.files.readText path with
    | error f =>
      rw [htext] at h
      cases h
      exact readText_ne_circular _ _ htext
    | ok text =>
      rw [htext] at h
      exact readMapping_ne_circular text h

/-- Only a name that comes again makes a circle, never something that cannot be read. -/
theorem readRef_ne_circular (ref : String) : readRef t ref ≠ .error (.circularPolicy s) := by
  unfold readRef
  split
  case h_1 name =>
    unfold readPreset
    dsimp only
    split
    case h_1 => simp
    case h_2 =>
      split
      case isTrue => exact readPath_ne_circular _
      case isFalse => simp
  case h_2 => exact readPath_ne_circular _

theorem Blocked.ne_circular {d : List (Value × Value)} {f : Fault} (h : Blocked t d f) :
    f ≠ .circularPolicy s := by
  rintro rfl
  cases h with
  | name h => exact nameOf_ne_circular h
  | refs h => exact textList_ne_circular _ h
  | ref _ _ h => exact readRef_ne_circular _ h

end Faults

section Walk

/-- The first reference whose resolution fails for a name that comes again. -/
theorem Resolves.clashes {r : Except Fault (List (Value × Value))}
    (h : Resolves t seen data r) (hr : r = .error (.circularPolicy s)) : Clashes t seen data s := by
  -- Among the references of one policy, the clash is below the first that fails.
  induction h using Resolves.rec
    (motive_2 := fun seen _ refs r _ => r = .error (.circularPolicy s) →
      ∃ before ref after m, refs = before ++ ref :: after ∧
        (∀ r ∈ before, ∃ d x, readRef t r = .ok d ∧ Resolves t seen d (.ok x)) ∧
        readRef t ref = .ok m ∧ Clashes t seen m s) with
  | unnamed hname =>
    cases hr
    exact absurd hname nameOf_ne_circular
  | circular hname ha hsame =>
    cases hr
    exact .here hname ha hsame
  | unlisted _ _ hrefs =>
    cases hr
    exact absurd hrefs (textList_ne_circular _)
  | stuck hname hnew hrefs _ ih =>
    obtain ⟨before, ref, after, m, rfl, hbefore, hm, hclash⟩ := ih hr
    exact .through hname hnew hrefs hbefore hm hclash
  | merged => cases hr
  | done hr => cases hr
  | unreadable hm hr =>
    cases hr
    exact absurd hm (readRef_ne_circular _)
  | failed hm _ ih hr => exact ⟨[], _, _, _, rfl, by simp, hm, ih hr⟩
  | next hm hresolved _ _ ih hr =>
    obtain ⟨before, ref, after, m, rfl, hbefore, hread, hclash⟩ := ih hr
    exact ⟨_ :: before, ref, after, m, rfl,
      List.forall_mem_cons.2 ⟨⟨_, _, hm, hresolved⟩, hbefore⟩, hread, hclash⟩

theorem resolvesAll_of_clash {before after : List String} {ref : String}
    {m : List (Value × Value)} {f : Fault}
    (hbefore : ∀ r ∈ before, ∃ d x, readRef t r = .ok d ∧ Resolves t seen d (.ok x))
    (hm : readRef t ref = .ok m) (hfail : Resolves t seen m (.error f)) :
    ResolvesAll t seen start (before ++ ref :: after) (.error f) := by
  induction before generalizing start with
  | nil => exact .failed hm hfail
  | cons r before ih =>
    obtain ⟨⟨d, x, hd, hx⟩, hrest⟩ := List.forall_mem_cons.1 hbefore
    exact .next hd hx (ih hrest)

theorem Clashes.resolves (h : Clashes t seen data s) :
    Resolves t seen data (.error (.circularPolicy s)) := by
  induction h with
  | here hname ha hsame => exact .circular hname ha hsame
  | through hname hnew hrefs hbefore hm _ ih =>
    exact .stuck hname hnew hrefs (resolvesAll_of_clash hbefore hm ih)

/-- The mapping and all that it inherits have names that are not among those seen. -/
def NewNames (t : Sources) (seen : List Value) (data : List (Value × Value)) : Prop :=
  ∀ e, Family t data e → ∃ name, nameOf e = .ok name ∧ ∀ a ∈ seen, isSameName a name = false

/-- What has been resolved has new names, none of which comes again below itself. -/
theorem Resolves.names_differ {r : Except Fault (List (Value × Value))}
    {merged : List (Value × Value)} (h : Resolves t seen data r) (hr : r = .ok merged) :
    NewNames t seen data ∧ ∀ f, ¬ Repeats t data f := by
  induction h using Resolves.rec
    (motive_2 := fun seen _ refs r _ => ∀ all, r = .ok all → ∀ ref ∈ refs, ∀ m,
      readRef t ref = .ok m → NewNames t seen m ∧ ∀ f, ¬ Repeats t m f)
    generalizing merged with
  | unnamed => cases hr
  | circular => cases hr
  | unlisted => cases hr
  | stuck => cases hr
  | @merged seen data name refs inherited hname hnew hrefs _ ih =>
    have below {m : List (Value × Value)} (hm : Inherits t data m) :
        NewNames t (name :: seen) m ∧ ∀ f, ¬ Repeats t m f := by
      obtain ⟨refs', ref, hrefs', href, hread⟩ := hm
      cases hrefs.symm.trans hrefs'
      exact ih inherited rfl ref href m hread
    constructor
    · intro e he
      obtain rfl | ⟨m, hm, he⟩ := he.cases_head
      · exact ⟨name, hname, hnew⟩
      · obtain ⟨other, hother, hfresh⟩ := (below hm).1 e he
        exact ⟨other, hother, fun a ha => hfresh a (List.mem_cons_of_mem name ha)⟩
    · rintro f ⟨d, e, one, again, hd, he, hone, hagain, hsame, rfl⟩
      obtain rfl | ⟨m, hm, hd⟩ := hd.cases_head
      · -- The name of the mapping itself stands above all that it inherits.
        obtain ⟨m, hm, he⟩ := Relation.TransGen.head'_iff.1 he
        obtain ⟨other, hother, hfresh⟩ := (below hm).1 e he
        cases hname.symm.trans hone
        cases hagain.symm.trans hother
        rw [hfresh name List.mem_cons_self] at hsame
        cases hsame
      · exact (below hm).2 _ ⟨d, e, one, again, hd, he, hone, hagain, hsame, rfl⟩
  | done _ _ _ href => cases href
  | unreadable _ _ hall => cases hall
  | failed _ _ _ _ hall => cases hall
  | next hm _ _ ih ihrest all hall ref href m' hm' =>
    obtain rfl | href := List.mem_cons.1 href
    · cases hm.symm.trans hm'
      exact ih rfl
    · exact ihrest all hall ref href m' hm'

end Walk

/-- Inheritance is called circular exactly if the walk through the parents comes to a policy with
the name of one above it. Then some policy and one that it inherits have one name; and if they do,
and nothing on any way is unreadable, the walk comes to such a pair. -/
theorem called_circular_iff (t : Sources) (data : List (Value × Value)) :
    (∀ s, resolveAll t data = .error (.circularPolicy s) ↔ Clashes t [] data s) ∧
      (∀ s, Clashes t [] data s → Repeats t data (.circularPolicy s)) ∧
      ((∀ d f, Family t data d → ¬ Blocked t d f) → (∃ f, Repeats t data f) →
        ∃ s, Clashes t [] data s) := by
  have resolved := resolves_resolveAll t data
  have repeated {f : Fault} (h : resolveAll t data = .error f) :
      Repeats t data f ∨ ∃ e, Family t data e ∧ Blocked t e f :=
    resolved.cause h .refl (by simp [Above])
  have called (s : String) : resolveAll t data = .error (.circularPolicy s) ↔
      Clashes t [] data s := ⟨resolved.clashes, fun h => resolved.unique h.resolves⟩
  refine ⟨called, fun s hs => ?_, ?_⟩
  · obtain h | ⟨e, -, hblocked⟩ := repeated ((called s).2 hs)
    · exact h
    · exact absurd rfl hblocked.ne_circular
  · rintro readable ⟨f, hrepeats⟩
    cases h : resolveAll t data with
    | ok r => exact absurd hrepeats ((resolved.names_differ h).2 f)
    | error g =>
      obtain hg | ⟨e, he, hblocked⟩ := repeated h
      · obtain ⟨-, -, -, again, -, -, -, -, -, rfl⟩ := hg
        exact ⟨again.asText, (called _).1 h⟩
      · exact absurd hblocked (readable e g he)

section Namesakes

variable {name : String} {own : List (Value × Value)}

theorem nameOf_onBaseline : nameOf (onBaseline name own) = .ok (.text name) := rfl

theorem nameOf_baseline : nameOf baseline = .ok (.text "default") := rfl

theorem readRef_baseline : readRef t "preset:default" = .ok baseline := rfl

theorem readable_onBaseline {d : List (Value × Value)} {f : Fault}
    (hd : Family t (onBaseline name own) d) : ¬ Blocked t d f := by
  obtain rfl | rfl := family_onBaseline hd
  · rintro (hname | hrefs | ⟨hrefs, href, hread⟩)
    · cases nameOf_onBaseline.symm.trans hname
    · cases refs_onBaseline.symm.trans hrefs
    · cases refs_onBaseline.symm.trans hrefs
      cases List.mem_singleton.1 href
      cases readRef_baseline.symm.trans hread
  · rintro (hname | hrefs | ⟨hrefs, href, -⟩)
    · cases hname
    · cases hrefs
    · cases hrefs
      cases href

theorem ne_baseline : onBaseline name own ≠ baseline := by
  intro h
  have hrefs : textList (Value.lookup "inherit" (onBaseline name own)) = _ := refs_onBaseline
  rw [h] at hrefs
  cases hrefs

theorem acyclic_onBaseline {d : List (Value × Value)} (hd : Family t (onBaseline name own) d) :
    ¬ Ancestor t d d := by
  intro hcircle
  obtain ⟨m, hm, hback⟩ := Relation.TransGen.head'_iff.1 hcircle
  obtain rfl | rfl := family_onBaseline hd
  · cases inherits_onBaseline.1 hm
    obtain heq | ⟨_, hm, -⟩ := hback.cases_head
    · exact ne_baseline heq.symm
    · exact not_inherits_baseline hm
  · exact not_inherits_baseline hm

/-- A policy that is named as its parent. -/
theorem namesake_clashes :
    let t : Sources := (⟨.dir [], Path.ofText "/"⟩ : FileTree)
    let child := onBaseline "default" []
    (∀ d f, Family t child d → ¬ Blocked t d f) ∧ (∃ f, Repeats t child f) ∧
      ∃ s, Clashes t [] child s ∧ Repeats t child (.circularPolicy s) := by
  intro t child
  have readable : ∀ d f, Family t child d → ¬ Blocked t d f := fun _ _ => readable_onBaseline
  have repeats : ∃ f, Repeats t child f :=
    ⟨_, child, baseline, .text "default", .text "default", .refl,
      .single (inherits_onBaseline.2 rfl), rfl, rfl, isSameName_self nameOf_baseline, rfl⟩
  obtain ⟨-, named, found⟩ := called_circular_iff t child
  obtain ⟨s, hs⟩ := found readable repeats
  exact ⟨readable, repeats, s, hs, named s hs⟩

/-- A policy that is named as its parent is called circular although nothing inherits itself. -/
theorem namesake_called_circular :
    let t : Sources := (⟨.dir [], Path.ofText "/"⟩ : FileTree)
    let child := onBaseline "default" []
    (∀ d, Family t child d → ¬ Ancestor t d d) ∧
      resolveAll t child = .error (.circularPolicy "default") := by
  intro t child
  refine ⟨fun _ => acyclic_onBaseline, ?_⟩
  have clash : resolve t (t.files.root.fileCount + presets.length + 1) [.text "default"] baseline =
      .error (.circularPolicy "default") :=
    resolve_circular rfl List.mem_cons_self (isSameName_self nameOf_baseline)
  rw [resolveAll, resolve_listed nameOf_onBaseline (by simp) refs_onBaseline,
    resolveRefs_failed readRef_baseline clash]
  rfl

end Namesakes

end PluginAudit.Policy
