import PluginAudit.Proofs.Visits
import PluginAudit.Proofs.RecordedText
import Mathlib.Data.List.Induction

namespace PluginAudit.Php

open Detect

/-- All that is known of one variable. -/
@[ext]
structure Known where
  value : Option String
  classLiteral : Option String
  type : Option String
  node : Option Site

/-- The plain variables that an assignment or a removal writes. -/
def Node.written (n : Node) : List String :=
  match n.kind with
  | .assignmentExpression | .referenceAssignmentExpression | .augmentedAssignmentExpression =>
    ((n.child? .left).bind plainVariable?).toList
  | .unsetStatement => n.namedChildren.filterMap plainVariable?
  | _ => []

namespace Facts

def about (f : Facts) (x : String) : Known :=
  ⟨f.values.find? x, f.classLiterals.find? x, f.types.find? x, f.nodes.find? x⟩

/-- The facts after the sites have been passed, in order. -/
def after (f : Facts) (names : Names) (sites : List Site) : Facts :=
  sites.foldl (fun f s => f.observe names s) f

variable {f : Facts} {names : Names} {s : Site} {x y : String}

@[simp] theorem after_nil : f.after names [] = f := rfl

@[simp] theorem after_cons (sites : List Site) :
    f.after names (s :: sites) = (f.observe names s).after names sites := rfl

theorem after_append (earlier later : List Site) :
    f.after names (earlier ++ later) = (f.after names earlier).after names later :=
  List.foldl_append

theorem about_forget_of_ne (h : y ≠ x) : (f.forget x).about y = f.about y := by
  simp [about, forget, Table.find?_erase_of_ne _ _ _ (Ne.symm h)]

theorem find?_copy_of_ne (t : Table String) (source : String) (h : y ≠ x) :
    (copy t source x).find? y = t.find? y := by
  rw [copy]
  cases t.find? source with
  | none => rfl
  | some v => exact Table.find?_put_of_ne _ _ _ _ (Ne.symm h)

theorem about_learnClass_of_ne (right : Node) (h : y ≠ x) :
    (f.learnClass names x right).about y = f.about y := by
  fun_cases learnClass <;> simp_all [about, Table.find?_put_of_ne _ _ _ _ (Ne.symm h)]

theorem about_learnValue_of_ne (right : Node) (h : y ≠ x) :
    (assign.learnValue x right f).about y = f.about y := by
  rw [assign.learnValue]
  cases f.describe right with
  | none => rfl
  | some v => simp [about, Table.find?_put_of_ne _ _ _ _ (Ne.symm h)]

/-- The facts once a variable is bound to an expression that has not been looked at yet. -/
def bound (f : Facts) (x : String) (right : Site) : Facts :=
  { f.forget x with nodes := (f.forget x).nodes.put x right }

def boundTo (f : Facts) (x : String) (right : Site) (source : String) : Facts :=
  { f.bound x right with
    values := copy (f.bound x right).values source x
    classLiterals := copy (f.bound x right).classLiterals source x
    types := copy (f.bound x right).types source x }

theorem about_bound_of_ne (right : Site) (h : y ≠ x) : (f.bound x right).about y = f.about y := by
  rw [← about_forget_of_ne (f := f) h]
  simp [about, bound, Table.find?_put_of_ne _ _ _ _ (Ne.symm h)]

/-- All that an assignment to a plain variable can do. -/
theorem assign_cases (hx : (s.node.child? .left).bind Node.plainVariable? = some x) :
    f.assign names s = f ∨ f.assign names s = f.forget x ∨
    (∃ right, f.assign names s =
      assign.learnValue x right.node ((f.bound x right).learnClass names x right.node)) ∨
    ∃ right source, f.assign names s = f.boundTo x right source := by
  rw [assign, hx]
  dsimp only
  split
  case isTrue => exact .inl rfl
  case isFalse =>
    split
    case h_1 => exact .inr (.inl rfl)
    case h_2 right hright =>
      split
      case h_1 source hsource =>
        split
        case isTrue => exact .inr (.inr (.inl ⟨right, rfl⟩))
        case isFalse => exact .inr (.inr (.inr ⟨right, source, rfl⟩))
      case h_2 => exact .inr (.inr (.inl ⟨right, rfl⟩))

theorem about_assign_of_not_left (h : (s.node.child? .left).bind Node.plainVariable? ≠ some y) :
    (f.assign names s).about y = f.about y := by
  cases hx : (s.node.child? .left).bind Node.plainVariable? with
  | none => rw [assign, hx]
  | some x =>
    have hne : y ≠ x := fun hxy => h (hxy ▸ hx)
    obtain hf | hf | ⟨right, hf⟩ | ⟨right, source, hf⟩ := assign_cases hx <;> rw [hf]
    · exact about_forget_of_ne hne
    · rw [about_learnValue_of_ne _ hne, about_learnClass_of_ne _ hne, about_bound_of_ne _ hne]
    · rw [← about_bound_of_ne (f := f) right hne]
      simp [about, boundTo, find?_copy_of_ne _ _ hne]

theorem about_append_of_not_left {n : Node} (h : (n.child? .left).bind Node.plainVariable? ≠ some y) :
    (f.append n).about y = f.about y := by
  rw [append]
  split
  case h_1 => rfl
  case h_2 x hx =>
    have hne : y ≠ x := fun hxy => h (hxy ▸ hx)
    split
    case isTrue => rfl
    case isFalse =>
      dsimp only
      split
      case h_1 => simp [about, Table.find?_put_of_ne _ _ _ _ (Ne.symm hne)]
      case h_2 => exact about_forget_of_ne hne

theorem of_foldl_forget {p : Facts → Prop} {targets : List String} (h : p f)
    (hforget : ∀ g, p g → ∀ x ∈ targets, p (g.forget x)) :
    p (targets.foldl (fun (f : Facts) x => if x == "" then f else f.forget x) f) := by
  refine List.foldlRecOn targets _ h fun g hg x hx => ?_
  split
  case isTrue => exact hg
  case isFalse => exact hforget g hg x hx

theorem about_foldl_forget {targets : List String} (h : y ∉ targets) :
    (targets.foldl (fun (f : Facts) x => if x == "" then f else f.forget x) f).about y =
      f.about y := by
  refine of_foldl_forget (p := fun g => g.about y = f.about y) rfl fun g hg x hx => ?_
  have hne : y ≠ x := fun hyx => h (hyx ▸ hx)
  rw [about_forget_of_ne hne, hg]

theorem about_observe (h : y ∉ s.node.written) : (f.observe names s).about y = f.about y := by
  rw [Node.written] at h
  fun_cases observe f names s with
  | case1 hkind | case2 hkind =>
    rw [hkind] at h
    exact about_assign_of_not_left (by simpa using h)
  | case3 hkind =>
    rw [hkind] at h
    exact about_append_of_not_left (by simpa using h)
  | case4 hkind =>
    rw [hkind] at h
    exact about_foldl_forget h
  | case5 => rfl

theorem about_after {sites : List Site} (h : ∀ s ∈ sites, y ∉ s.node.written) :
    (f.after names sites).about y = f.about y := by
  induction sites generalizing f with
  | nil => rfl
  | cons s rest ih =>
    obtain ⟨hs, hrest⟩ := List.forall_mem_cons.1 h
    rw [after_cons, ih hrest, about_observe hs]

/-- What is known of the variable after the sites was recorded by a write among them. -/
def RenewedIn (f : Facts) (names : Names) (sites : List Site) (x : String) : Prop :=
  ∃ earlier write later, sites = earlier ++ write :: later ∧ x ∈ write.node.written ∧
    (f.after names sites).about x = ((f.after names earlier).observe names write).about x

/-- No text is told of the variable after the sites, or one that was recorded among them. -/
def FreshAfter (f : Facts) (names : Names) (sites : List Site) (x : String) : Prop :=
  (f.after names sites).values.find? x = none ∨ f.RenewedIn names sites x

/-- The last write among the sites decides what is known after them. -/
theorem renewedIn_of_mem {sites : List Site} (hs : s ∈ sites) (h : x ∈ s.node.written) :
    f.RenewedIn names sites x := by
  -- from the end: a last site that writes decides, any other leaves what the sites before it decide
  induction sites using List.reverseRecOn with
  | nil => cases hs
  | append_singleton rest t ih =>
    by_cases ht : x ∈ t.node.written
    · refine ⟨rest, t, [], rfl, ht, ?_⟩
      rw [after_append, after_cons, after_nil]
    · have hrest : s ∈ rest := by
        obtain hmem | rfl := List.mem_append.1 hs |>.imp_right List.mem_singleton.1
        · exact hmem
        · exact absurd h ht
      obtain ⟨earlier, write, later, rfl, hwrite, hknown⟩ := ih hrest
      refine ⟨earlier, write, later ++ [t], by simp, hwrite, ?_⟩
      rw [after_append, after_cons, after_nil, about_observe ht, hknown]

theorem freshAfter_iff_of_not_written {sites : List Site} (h : ∀ s ∈ sites, x ∉ s.node.written) :
    f.FreshAfter names sites x ↔ f.values.find? x = none := by
  have hvalue : (f.after names sites).values.find? x = f.values.find? x :=
    congrArg Known.value (about_after h)
  have hold : ¬ f.RenewedIn names sites x := by
    rintro ⟨earlier, write, later, rfl, hwritten, -⟩
    exact h write (by simp) hwritten
  rw [FreshAfter, hvalue, or_iff_left hold]

end Facts

theorem Site.preorder_eq_cons (s : Site) : s.preorder = s :: s.preorder.tail := by
  obtain ⟨⟨k, r, b, e, l, t, cs⟩, owner, parent⟩ := s
  rfl

namespace Node

mutual

/-- The plain variables that a pattern stores into. -/
def targets : Node → List String
  | mk k r s e l t cs =>
    match k with
    | .variableName => (mk k r s e l t cs).plainVariable?.toList
    | .listLiteral | .arrayCreationExpression | .arrayElementInitializer | .byRef => targetsAll cs
    | _ => []

/-- A key, in front of an arrow, is only read. -/
def targetsAll : List Node → List String
  | [] => []
  | c :: rest => (if rest.head?.any (·.text == "=>") then [] else targets c) ++ targetsAll rest

end

/-- The plain variables that an assignment to a list or to an element of a variable writes. -/
def places (left : Node) : List String :=
  match left.kind with
  | .listLiteral => left.targets
  | .subscriptExpression => left.subscriptBase.plainVariable?.toList
  | _ => []

/-- The plain variables that a node writes in another way: as targets of a destructuring, by one of
their elements, in a step, or as key or item of a loop. -/
def writtenOtherwise (n : Node) : List String :=
  match n.kind with
  | .assignmentExpression | .referenceAssignmentExpression | .augmentedAssignmentExpression =>
    ((n.child? .left).map places).getD []
  | .updateExpression => n.namedChildren.filterMap (·.subscriptBase.plainVariable?)
  | .foreachStatement =>
    match (n.namedChildren.filter (·.kind != .comment))[1]? with
    | some place =>
      if place.kind == .pair then place.namedChildren.flatMap targets else place.targets
    | none => []
  | _ => []

/-- The variables that a node makes references to one value. -/
def aliased? (n : Node) : Option (String × String) :=
  if n.kind == .referenceAssignmentExpression then
    ((n.child? .left).bind plainVariable?).bind fun x =>
      ((n.child? .right).bind plainVariable?).map (x, ·)
  else none

end Node

/-- The node writes the variable in a way that is no assignment to it by its own name. -/
def Node.WritesOtherwise (before : List Site) (n : Node) (x : String) : Prop :=
  x ∈ n.writtenOtherwise ∨ (n.kind ≠ .unsetStatement ∧ x ∉ n.written ∧ ∃ y ∈ n.written,
    (x, y) ∈ before.filterMap (·.node.aliased?) ∨ (y, x) ∈ before.filterMap (·.node.aliased?))

instance (before : List Site) (n : Node) (x : String) : Decidable (n.WritesOtherwise before x) :=
  inferInstanceAs (Decidable (_ ∨ _))

theorem Node.plainVariable?_of_mem_places {left : Node} {x : String} (h : x ∈ left.places) :
    left.plainVariable? = none := by
  have hkind : left.kind ≠ .variableName ∧ left.kind ≠ .parenthesizedExpression := by
    constructor <;> intro hk <;> simp [places, hk] at h
  refine plainVariable?_of_kind ?_
  rw [unwrap_of_kind hkind.2]
  exact hkind.1

theorem Node.WritesOtherwise.not_mem_written {before : List Site} {n : Node} {x : String}
    (h : n.WritesOtherwise before x) : x ∉ n.written := by
  obtain h | ⟨-, h, -⟩ := h
  case inr => exact h
  have hleft : ∀ left : Option Node, x ∈ (left.map places).getD [] → left.bind plainVariable? = none := by
    intro left hx
    cases left with
    | none => rfl
    | some left => exact plainVariable?_of_mem_places hx
  fun_cases Node.writtenOtherwise n with
  | case1 hkind | case2 hkind | case3 hkind =>
    rw [writtenOtherwise, hkind] at h
    simp [written, hkind, hleft _ h]
  | case4 hkind | case5 hkind | case6 hkind | case7 hkind => simp [written, hkind]
  | case8 hassign hreference haugmented hupdate hforeach =>
    rw [writtenOtherwise] at h
    split at h <;> simp_all

/-- A node that writes a variable in another way leaves everything that was known of it, unless an
assignment to it or its removal stands below the node. -/
theorem other_writes_unnoticed {before : List Site} {s : Site} {x : String}
    (h : s.node.WritesOtherwise before x) (names : Names) :
    let f := Facts.empty.after names before
    (f.FreshAfter names s.preorder x ↔
      (f.values.find? x = none ∨ ∃ t ∈ s.preorder.tail, x ∈ t.node.written)) ∧
    ((∀ t ∈ s.preorder.tail, x ∉ t.node.written) →
      (f.after names s.preorder).about x = f.about x) := by
  intro f
  have hsites : s.preorder = s :: s.preorder.tail := s.preorder_eq_cons
  have hnone : (∀ t ∈ s.preorder.tail, x ∉ t.node.written) →
      ∀ t ∈ s.preorder, x ∉ t.node.written := by
    intro htail
    rw [hsites]
    exact List.forall_mem_cons.2 ⟨h.not_mem_written, htail⟩
  refine ⟨?_, fun htail => Facts.about_after (hnone htail)⟩
  by_cases hbelow : ∃ t ∈ s.preorder.tail, x ∈ t.node.written
  · obtain ⟨t, ht, hwritten⟩ := hbelow
    have hrenewed : f.RenewedIn names s.preorder x :=
      Facts.renewedIn_of_mem (List.mem_of_mem_tail ht) hwritten
    exact iff_of_true (.inr hrenewed) (.inr ⟨t, ht, hwritten⟩)
  · rw [or_iff_left hbelow]
    exact Facts.freshAfter_iff_of_not_written (hnone fun t ht hx => hbelow ⟨t, ht, hx⟩)

section Sources

/-- The sites of a source file, each before those below it. -/
def sitesOfText (source : String) : List Site :=
  (Site.root (Source.ofBytes source.toUTF8).tree).preorder

theorem destructuring_unnoticed :
    let sites := sitesOfText "<?php $f='strlen';[$f]=['system'];"
    let before := sites.take 11
    let f := Facts.empty.after default before
    ∃ s ∈ sites[11]?, s.node.WritesOtherwise before "f" ∧
      (f.FreshAfter default s.preorder "f" ↔
        (f.values.find? "f" = none ∨ ∃ t ∈ s.preorder.tail, "f" ∈ t.node.written)) ∧
      (f.after default s.preorder).about "f" = f.about "f" := by
  intro sites before f
  have hwrites : ∃ s ∈ sites[11]?, s.node.WritesOtherwise before "f" ∧
      ∀ t ∈ s.preorder.tail, "f" ∉ t.node.written := by decide +kernel
  obtain ⟨s, hs, hs', hbelow⟩ := hwrites
  obtain ⟨hfresh, hkept⟩ := other_writes_unnoticed hs' default
  exact ⟨s, hs, hs', hfresh, hkept hbelow⟩

/-- The site at the place writes `$f` in another way, and the text told of it before is still told. -/
def KeepsOld (source : String) (place : Nat) : Prop :=
  let before := (sitesOfText source).take place
  let f := Facts.empty.after default before
  ∃ s ∈ (sitesOfText source)[place]?, s.node.WritesOtherwise before "f" ∧
    (f.after default s.preorder).values.find? "f" = some "strlen" ∧
    ¬ f.FreshAfter default s.preorder "f"

theorem keepsOld {source : String} {place : Nat}
    (h : let before := (sitesOfText source).take place
      let f := Facts.empty.after default before
      ∃ s ∈ (sitesOfText source)[place]?, s.node.WritesOtherwise before "f" ∧
        (∀ t ∈ s.preorder, "f" ∉ t.node.written) ∧ f.values.find? "f" = some "strlen" ∧
        (f.after default s.preorder).values.find? "f" = some "strlen") :
    KeepsOld source place := by
  obtain ⟨s, hs, hwrites, hnone, hold, hnow⟩ := h
  refine ⟨s, hs, hwrites, hnow, ?_⟩
  rw [Facts.freshAfter_iff_of_not_written hnone, hold]
  exact Option.some_ne_none _

/-- A destructuring, an element, a step and a reference that is written go unnoticed: the name that the
variable held before is still told. -/
theorem old_name_survives :
    KeepsOld "<?php $f='strlen';[$f]=['system'];" 11 ∧
    KeepsOld "<?php $f='strlen';$f[0]='S';" 11 ∧
    KeepsOld "<?php $f='strlen';$f++;" 11 ∧
    KeepsOld "<?php $f='strlen';$g=&$f;$g='system';" 23 := by
  refine ⟨keepsOld ?_, keepsOld ?_, keepsOld ?_, keepsOld ?_⟩
  · decide +kernel
  · decide +kernel
  · decide +kernel
  · decide +kernel

end Sources

end PluginAudit.Php
