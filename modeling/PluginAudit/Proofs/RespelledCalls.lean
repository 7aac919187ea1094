import PluginAudit.Proofs.Casing
import PluginAudit.Proofs.ImportItems
import PluginAudit.Proofs.RecordedText
import PluginAudit.Proofs.RelatedEntries
import PluginAudit.Proofs.Traversals

namespace PluginAudit

namespace Text

theorem mem_lower {x : Char} (hx : IsCaseless x) {s : String} (h : x ∈ s.toList) :
    x ∈ (lower s).toList := by
  rw [toList_lower]
  generalize ([] : List Char) = before
  generalize s.toList = cs at h
  induction cs generalizing before with
  | nil => cases h
  | cons c cs ih =>
    rw [lowerParts, List.flatten_cons, List.mem_append]
    rcases List.mem_cons.1 h with rfl | h
    · rw [lowerIn_self hx]
      exact .inl List.mem_cons_self
    · exact .inr (ih (c :: before) h)

theorem mem_dropWhile {p : Char → Bool} {x : Char} (hx : p x = false) {cs : List Char}
    (h : x ∈ cs) : x ∈ cs.dropWhile p := by
  induction cs with
  | nil => cases h
  | cons c cs ih =>
    rw [List.dropWhile_cons]
    split
    case isTrue hc =>
      rcases List.mem_cons.1 h with rfl | h
      · rw [hx] at hc
        cases hc
      · exact ih h
    case isFalse => exact h

theorem mem_strip {x : Char} (hx : isBlank x = false) {s : String} (h : x ∈ s.toList) :
    x ∈ (strip s).toList := by
  rw [strip, trim, String.toList_ofList, dropEndWhile, List.mem_reverse]
  exact mem_dropWhile hx (List.mem_reverse.2 (mem_dropWhile hx h))

theorem not_isBlank_paren : isBlank '(' = false := by
  cbv

/-- The same text, or both hold an opening parenthesis and are no word of the language. -/
def SameWord (s t : String) : Prop :=
  s = t ∨ '(' ∈ s.toList ∧ '(' ∈ t.toList

namespace SameWord

variable {s t : String}

theorem lower (h : SameWord s t) : SameWord (lower s) (lower t) :=
  h.imp (congrArg Text.lower) fun h => ⟨mem_lower (by decide) h.1, mem_lower (by decide) h.2⟩

theorem strip (h : SameWord s t) : SameWord (strip s) (strip t) :=
  h.imp (congrArg Text.strip) fun h => ⟨mem_strip not_isBlank_paren h.1,
    mem_strip not_isBlank_paren h.2⟩

theorem beq (h : SameWord s t) {word : String} (hword : '(' ∉ word.toList) :
    (s == word) = (t == word) := by
  rcases h with rfl | ⟨hs, ht⟩
  · rfl
  · have hne : s ≠ word := fun he => hword (he ▸ hs)
    have hne' : t ≠ word := fun he => hword (he ▸ ht)
    rw [beq_eq_false_iff_ne.2 hne, beq_eq_false_iff_ne.2 hne']

end SameWord

end Text

namespace Php

/-- A function, and another name that it is imported under. -/
structure Alias where
  name : String
  knownAs : String

namespace Node

section Readers

theorem sizeOf_lt_of_mem_children {n c : Node} (h : c ∈ n.children) : sizeOf c < sizeOf n := by
  obtain ⟨k, r, s, e, l, t, cs⟩ := n
  have hlt : sizeOf c < sizeOf cs := List.sizeOf_lt_of_mem h
  rw [mk.sizeOf_spec]
  omega

/-- What holds of a node whenever it holds of its children holds of all nodes. -/
theorem childInduction {motive : Node → Prop}
    (step : ∀ n, (∀ c ∈ n.children, motive c) → motive n) (n : Node) : motive n :=
  step n fun c _ => childInduction step c
termination_by sizeOf n
decreasing_by exact sizeOf_lt_of_mem_children ‹_›

theorem role_of_child? {n c : Node} {r : Role} (h : n.child? r = some c) : c.role = some r := by
  have hrole : (c.role == some r) = true :=
    List.find?_some (p := fun x : Node => x.role == some r) h
  exact beq_iff_eq.1 hrole

theorem inner_eq (whole : Node) (cs : List Node) :
    unwrap.inner whole cs = ((cs.find? isNamed).map unwrap).getD whole := by
  induction cs with
  | nil => rfl
  | cons c cs ih =>
    rw [unwrap.inner, List.find?_cons]
    cases c.isNamed <;> simp [ih]

theorem unwrap_eq (n : Node) :
    n.unwrap = if n.kind == .parenthesizedExpression then
      ((n.namedChildren.head?).map unwrap).getD n else n := by
  obtain ⟨k, r, s, e, l, t, cs⟩ := n
  rw [namedChildren, List.head?_filter, ← inner_eq]
  rfl

theorem first_eq (whole : Node) (cs : List Node) :
    subscriptBase.first whole cs = ((cs.find? isNamed).map subscriptBase).getD whole := by
  induction cs with
  | nil => rfl
  | cons c cs ih =>
    rw [subscriptBase.first, List.find?_cons]
    cases c.isNamed <;> simp [ih]

theorem subscriptBase_eq (n : Node) :
    n.subscriptBase = if n.kind == .subscriptExpression then
      ((n.namedChildren.head?).map subscriptBase).getD n else n := by
  obtain ⟨k, r, s, e, l, t, cs⟩ := n
  rw [namedChildren, List.head?_filter, ← first_eq]
  rfl

theorem partsInside_eq (whole : Node) (cs : List Node) :
    partsInside whole cs = ((cs.find? isNamed).map concatParts).getD [whole] := by
  induction cs with
  | nil => rfl
  | cons c cs ih =>
    rw [partsInside, List.find?_cons]
    cases c.isNamed <;> simp [ih]

theorem sideParts_eq (side : Role) (cs : List Node) :
    sideParts side cs =
      ((cs.find? fun c => c.role == some side).map concatParts).getD [] := by
  induction cs with
  | nil => rfl
  | cons c cs ih =>
    rw [sideParts, List.find?_cons]
    cases c.role == some side <;> simp [ih]

theorem concatParts_eq (n : Node) :
    n.concatParts = if n.kind == .parenthesizedExpression then
        ((n.namedChildren.head?).map concatParts).getD [n]
      else if n.isConcat then
        ((n.child? .left).map concatParts).getD [] ++ ((n.child? .right).map concatParts).getD []
      else [n] := by
  obtain ⟨k, r, s, e, l, t, cs⟩ := n
  rw [namedChildren, List.head?_filter, ← partsInside_eq, child?, ← sideParts_eq, child?,
    ← sideParts_eq]
  rw [concatParts]
  rfl

theorem preorderAll_eq (ns : List Node) : preorderAll ns = ns.flatMap preorder := by
  induction ns with
  | nil => rfl
  | cons n ns ih => rw [preorderAll, ih, List.flatMap_cons]

end Readers

/-- What holds code reads as no name and no value. -/
structure HoldsCode (n : Node) : Prop where
  paren : '(' ∈ n.text.toList
  unnamed : n.isName = false
  plain : n.kind ≠ .variableName ∧ n.kind ≠ .namespaceUseDeclaration
  worthless : n.kind.isString = true → n.literal? = none

variable (a : Alias)

/-- A called name, spelled as the function and as the other name of it. -/
structure Renamed (n n' : Node) : Prop where
  kind : n.kind = .name ∧ n'.kind = .name
  role : n.role = some .callee ∧ n'.role = some .callee
  leaf : n.children = [] ∧ n'.children = []
  old : IsIdentifier n.text ∧ Unblanked n.text ∧ Text.lower n.text = Text.lower a.name
  new : n'.text = a.knownAs

mutual

/-- The second tree is the first, with some calls of the function under its other name, by which the
first calls nothing. The places may differ, and so may the texts of what holds such calls. -/
inductive Respells : Node → Node → Prop where
  | mk {n n' : Node} : n.kind = n'.kind → n.role = n'.role →
      (n.text = n'.text ∨ n.HoldsCode ∧ n'.HoldsCode) →
      (n.kind = .functionCallExpression → ∀ f, n.callee? = some f → f.isName = true →
        Text.lower (Text.strip f.text) ≠ Text.lower a.knownAs) →
      (n.kind.isFunctionLike = true ∨ n.kind.isClassLike = true →
        ∀ c ∈ n.children, c.role = some .name → c.isName = true) →
      RespellsAll n.kind n.children n'.children → Respells n n'

/-- Only in a call may the called name be another one. -/
inductive RespellsAll : Kind → List Node → List Node → Prop where
  | nil {k : Kind} : RespellsAll k [] []
  | cons {k : Kind} {c c' : Node} {cs cs' : List Node} : Respells c c' → RespellsAll k cs cs' →
      RespellsAll k (c :: cs) (c' :: cs')
  | renamed {c c' : Node} {cs cs' : List Node} : Renamed a c c' →
      RespellsAll .functionCallExpression cs cs' →
      RespellsAll .functionCallExpression (c :: cs) (c' :: cs')

end

/-- Two nodes in the same place of both trees. -/
def Alike (n n' : Node) : Prop :=
  Respells a n n' ∨ Renamed a n n'

variable {a} {n n' : Node} {k : Kind} {cs cs' : List Node}

namespace RespellsAll

theorem forall₂ : ∀ {k : Kind} {cs cs' : List Node}, RespellsAll a k cs cs' →
    List.Forall₂ (Alike a) cs cs'
  | _, [], _, h => by
    cases h
    exact .nil
  | _, c :: cs, _, h => by
    cases h with
    | cons hc hcs => exact .cons (.inl hc) (forall₂ hcs)
    | renamed hc hcs => exact .cons (.inr hc) (forall₂ hcs)

theorem forall₂_of_ne (hk : k ≠ .functionCallExpression) :
    ∀ {cs cs' : List Node}, RespellsAll a k cs cs' → List.Forall₂ (Respells a) cs cs'
  | [], _, h => by
    cases h
    exact .nil
  | c :: cs, _, h => by
    cases h with
    | cons hc hcs => exact .cons hc (forall₂_of_ne hk hcs)
    | renamed => exact absurd rfl hk

end RespellsAll

namespace Respells

theorem kind (h : Respells a n n') : n.kind = n'.kind := by
  cases h; assumption

theorem text (h : Respells a n n') : n.text = n'.text ∨ n.HoldsCode ∧ n'.HoldsCode := by
  cases h; assumption

theorem sameWord (h : Respells a n n') : Text.SameWord n.text n'.text :=
  h.text.imp_right fun h => ⟨h.1.paren, h.2.paren⟩

theorem text_of_not (h : Respells a n n') (hn : ¬ n.HoldsCode) : n.text = n'.text :=
  h.text.resolve_right fun hcode => hn hcode.1

theorem text_of_isName (h : Respells a n n') (hn : n.isName = true) : n.text = n'.text := by
  refine h.text.resolve_right fun hcode => ?_
  rw [hcode.1.unnamed] at hn
  cases hn

theorem fresh (h : Respells a n n') (hk : n.kind = .functionCallExpression) {f : Node}
    (hf : n.callee? = some f) (hname : f.isName = true) :
    Text.lower (Text.strip f.text) ≠ Text.lower a.knownAs := by
  cases h with
  | mk _ _ _ hfresh => exact hfresh hk f hf hname

theorem definedName (h : Respells a n n')
    (hn : n.kind.isFunctionLike = true ∨ n.kind.isClassLike = true) :
    ∀ c ∈ n.children, c.role = some .name → c.isName = true := by
  cases h with
  | mk _ _ _ _ hdefined => exact hdefined hn

theorem children (h : Respells a n n') : RespellsAll a n.kind n.children n'.children := by
  cases h; assumption

end Respells

namespace Alike

theorem kind (h : Alike a n n') : n.kind = n'.kind := by
  obtain h | h := h
  · exact h.kind
  · exact h.kind.1.trans h.kind.2.symm

theorem role (h : Alike a n n') : n.role = n'.role := by
  obtain h | h := h
  · cases h; assumption
  · exact h.role.1.trans h.role.2.symm

theorem isNamed (h : Alike a n n') : n.isNamed = n'.isNamed := by
  rw [Node.isNamed, Node.isNamed, h.kind]

theorem isName (h : Alike a n n') : n.isName = n'.isName := by
  rw [Node.isName, Node.isName, h.kind]

theorem respells (h : Alike a n n') (hn : n.kind ≠ .name ∨ n.role ≠ some .callee) :
    Respells a n n' :=
  h.resolve_right fun h => hn.elim (absurd h.kind.1) (absurd h.role.1)

theorem fresh (h : Alike a n n') (hk : n.kind = .functionCallExpression) {f : Node}
    (hf : n.callee? = some f) (hname : f.isName = true) :
    Text.lower (Text.strip f.text) ≠ Text.lower a.knownAs :=
  (h.respells (.inl (by rw [hk]; decide))).fresh hk hf hname

theorem children (h : Alike a n n') : List.Forall₂ (Alike a) n.children n'.children := by
  obtain h | h := h
  · exact h.children.forall₂
  · rw [h.leaf.1, h.leaf.2]
    exact .nil

theorem namedChildren (h : Alike a n n') :
    List.Forall₂ (Alike a) n.namedChildren n'.namedChildren :=
  rel_filter (fun _ _ hc => hc.isNamed) h.children

theorem child? (h : Alike a n n') (r : Role) :
    Option.Rel (Alike a) (n.child? r) (n'.child? r) :=
  rel_find? (fun _ _ hc => by rw [hc.role]) h.children

theorem child?_of_ne (h : Alike a n n') {r : Role} (hr : r ≠ .callee) :
    Option.Rel (Respells a) (n.child? r) (n'.child? r) := by
  apply rel_imp (h.child? r)
  intro c c' hc halike
  have hrole := role_of_child? hc
  exact halike.respells (.inr fun hcallee => hr (Option.some.inj (hrole.symm.trans hcallee)))

/-- A reader that goes into nodes of one kind, to the first named child, stays in the same place. -/
theorem descend {f : Node → Node} {k : Kind}
    (hf : ∀ n, f n = if n.kind == k then ((n.namedChildren.head?).map f).getD n else n)
    (h : Alike a n n') : Alike a (f n) (f n') := by
  induction n using childInduction generalizing n' with
  | step n ih =>
    rw [hf n, hf n', ← h.kind]
    split
    case isTrue =>
      apply rel_getD (R := Alike a) _ h
      apply rel_map (rel_head? h.namedChildren)
      intro c c' hc halike
      exact ih c (mem_children_of_named (List.mem_of_mem_head? hc)) halike
    case isFalse => exact h

theorem unwrap (h : Alike a n n') : Alike a n.unwrap n'.unwrap :=
  h.descend unwrap_eq

theorem subscriptBase (h : Alike a n n') : Alike a n.subscriptBase n'.subscriptBase :=
  h.descend subscriptBase_eq

theorem preorder (h : Alike a n n') : List.Forall₂ (Alike a) n.preorder n'.preorder := by
  induction n using childInduction generalizing n' with
  | step n ih =>
    rw [preorder_eq, preorder_eq, preorderAll_eq, preorderAll_eq]
    exact .cons h (rel_flatMap h.children fun c hc _ halike => ih c hc halike)

theorem preorderAll (h : Alike a n n') :
    List.Forall₂ (Alike a) (preorderAll n.children) (Node.preorderAll n'.children) := by
  rw [preorderAll_eq, preorderAll_eq]
  exact rel_flatMap h.children fun _ _ _ hc => hc.preorder

theorem scopeFrom (h : Alike a n n') : List.Forall₂ (Alike a) n.scopeFrom n'.scopeFrom := by
  induction n using childInduction generalizing n' with
  | step n ih =>
    rw [scopeFrom_eq, scopeFrom_eq, ← h.kind]
    refine .cons h ?_
    split
    case isTrue => exact .nil
    case isFalse => exact rel_flatMap h.children fun c hc _ halike => ih c hc halike

theorem scope (h : Alike a n n') : List.Forall₂ (Alike a) n.scope n'.scope := by
  rw [scope_eq, scope_eq, scopeAll_eq, scopeAll_eq]
  exact rel_flatMap h.children fun _ _ _ hc => hc.scopeFrom

theorem literal? (h : Alike a n n') : n.literal? = n'.literal? := by
  rw [← literal?_unwrap n, ← literal?_unwrap n']
  have hu := h.unwrap
  have hself := unwrap_unwrap n
  have hself' := unwrap_unwrap n'
  generalize n.unwrap = m at hu hself ⊢
  generalize n'.unwrap = m' at hu hself' ⊢
  cases hstring : m.kind.isString with
  | false =>
    rw [literal?_of_not_string (by rwa [hself]),
      literal?_of_not_string (by rwa [hself', ← hu.kind])]
  | true =>
    have hrespells := hu.respells (.inl fun hname => by rw [hname] at hstring; cases hstring)
    rcases hrespells.text with htext | ⟨hcode, hcode'⟩
    · have hplain : m.namedChildren.all isPlainPart = m'.namedChildren.all isPlainPart :=
        all_eq_of_forall₂ (fun _ _ hc => by rw [isPlainPart, isPlainPart, hc.kind]) hu.namedChildren
      have hcode : ((Node.preorderAll m.children).any fun c => c.kind.isInterpolation) =
          (Node.preorderAll m'.children).any fun c => c.kind.isInterpolation :=
        any_eq_of_forall₂ (fun _ _ hc => by rw [hc.kind]) hu.preorderAll
      rw [Node.literal?, Node.literal?, hself, hself', ← hu.kind, htext, hplain, hcode]
    · rw [hcode.worthless hstring, hcode'.worthless (hu.kind ▸ hstring)]

theorem namedChildren_of_ne (h : Alike a n n') (hn : n.kind ≠ .functionCallExpression) :
    List.Forall₂ (Respells a) n.namedChildren n'.namedChildren := by
  obtain h | h := h
  · apply rel_filter (fun _ _ hc => Alike.isNamed (.inl hc))
    exact h.children.forall₂_of_ne hn
  · rw [Node.namedChildren, Node.namedChildren, h.leaf.1, h.leaf.2]
    exact .nil

theorem plainVariable? (h : Alike a n n') : n.plainVariable? = n'.plainVariable? := by
  have hu := h.unwrap
  rw [Node.plainVariable?, Node.plainVariable?, ← hu.kind]
  split
  case isTrue hk =>
    have hvariable := beq_iff_eq.1 hk
    have hrespells := hu.respells (.inl (by rw [hvariable]; decide))
    rw [hrespells.text_of_not fun hcode => hcode.plain.1 hvariable]
  case isFalse => rfl

theorem superglobal? (h : Alike a n n') : n.superglobal? = n'.superglobal? := by
  rw [Node.superglobal?, Node.superglobal?, h.unwrap.subscriptBase.plainVariable?]

theorem operatorText (h : Alike a n n') : Text.SameWord n.operatorText n'.operatorText := by
  have htoken : Option.Rel (Respells a) (n.children.find? fun c => !c.isNamed)
      (n'.children.find? fun c => !c.isNamed) := by
    apply rel_imp (rel_find? (fun _ _ hc => by rw [Alike.isNamed hc]) h.children)
    intro c c' hc halike
    refine halike.respells (.inl fun hname => ?_)
    have hunnamed := List.find?_some hc
    rw [Node.isNamed, hname] at hunnamed
    cases hunnamed
  rw [Node.operatorText, Node.operatorText]
  obtain ⟨hop, hop'⟩ | ⟨op, op', hop, hop', hrespells⟩ :=
    rel_cases (h.child?_of_ne (r := .operator) (by decide))
  · rw [hop, hop']
    obtain ⟨hc, hc'⟩ | ⟨c, c', hc, hc', hrespells⟩ := rel_cases htoken
    · rw [hc, hc']
      exact .inl rfl
    · rw [hc, hc']
      exact hrespells.sameWord.lower
  · rw [hop, hop']
    exact hrespells.sameWord.lower

theorem isConcat (h : Alike a n n') : n.isConcat = n'.isConcat := by
  rw [Node.isConcat, Node.isConcat, h.kind, h.operatorText.beq (by decide)]

theorem concatParts (h : Alike a n n') :
    List.Forall₂ (Alike a) n.concatParts n'.concatParts := by
  induction n using childInduction generalizing n' with
  | step n ih =>
    have hside {r : Role} : List.Forall₂ (Alike a) (((n.child? r).map Node.concatParts).getD [])
        (((n'.child? r).map Node.concatParts).getD []) := by
      apply rel_getD (R := List.Forall₂ (Alike a)) _ .nil
      apply rel_map (h.child? r)
      intro c c' hc halike
      exact ih c (mem_children_of_child? hc) halike
    have hinside : List.Forall₂ (Alike a) (((n.namedChildren.head?).map Node.concatParts).getD [n])
        (((n'.namedChildren.head?).map Node.concatParts).getD [n']) := by
      apply rel_getD (R := List.Forall₂ (Alike a)) _ (.cons h .nil)
      apply rel_map (rel_head? h.namedChildren)
      intro c c' hc halike
      exact ih c (mem_children_of_named (List.mem_of_mem_head? hc)) halike
    rw [concatParts_eq n, concatParts_eq n', ← h.kind, ← h.isConcat]
    split
    case isTrue => exact hinside
    case isFalse =>
      split
      case isTrue => exact List.rel_append hside hside
      case isFalse => exact .cons h .nil

theorem callee? (h : Alike a n n') : Option.Rel (Alike a) n.callee? n'.callee? := by
  rw [Node.callee?, Node.callee?]
  obtain ⟨hf, hf'⟩ | ⟨f, f', hf, hf', halike⟩ := rel_cases (h.child? .callee)
  · rw [hf, hf']
    exact rel_head? h.namedChildren
  · rw [hf, hf']
    exact .some halike

theorem argumentValues (h : Alike a n n') :
    List.Forall₂ (Alike a) n.argumentValues n'.argumentValues := by
  have hvalues {m m' : Node} (hm : Alike a m m') :
      List.Forall₂ (Alike a)
        (m.namedChildren.filterMap fun (c : Node) =>
          if c.kind == .argument then c.namedChildren.getLast?
          else if c.kind == .comment then none else some c)
        (m'.namedChildren.filterMap fun (c : Node) =>
          if c.kind == .argument then c.namedChildren.getLast?
          else if c.kind == .comment then none else some c) := by
    apply List.rel_filterMap _ hm.namedChildren
    intro c c' hc
    dsimp only
    rw [hc.kind]
    split
    case isTrue => exact rel_getLast? hc.namedChildren
    case isFalse =>
      split
      case isTrue => exact .none
      case isFalse => exact .some hc
  have hlist : Option.Rel (Alike a) (n.children.find? fun c => c.kind == .arguments)
      (n'.children.find? fun c => c.kind == .arguments) :=
    rel_find? (fun _ _ hc => by rw [Alike.kind hc]) h.children
  rw [Node.argumentValues, Node.argumentValues]
  obtain ⟨hx, hx'⟩ | ⟨m, m', hx, hx', hm⟩ := rel_cases (h.child? .arguments)
  · rw [hx, hx']
    obtain ⟨hy, hy'⟩ | ⟨m, m', hy, hy', hm⟩ := rel_cases hlist
    · rw [hy, hy']
      exact .nil
    · rw [hy, hy']
      exact hvalues hm
  · rw [hx, hx']
    exact hvalues hm

theorem firstArgument? (h : Alike a n n') :
    Option.Rel (Alike a) n.firstArgument? n'.firstArgument? :=
  rel_map (rel_head? h.argumentValues) fun _ _ _ hc => hc.unwrap

theorem isAnonymousCreation (h : Alike a n n') : n.isAnonymousCreation = n'.isAnonymousCreation := by
  rw [Node.isAnonymousCreation, Node.isAnonymousCreation, h.kind]
  rw [any_eq_of_forall₂ (fun _ _ hc => by rw [Alike.kind hc]) h.children]

theorem createdClass? (h : Alike a n n') (hn : n.kind = .objectCreationExpression) :
    Option.Rel (Respells a) n.createdClass? n'.createdClass? := by
  rw [Node.createdClass?, Node.createdClass?, h.isAnonymousCreation]
  split
  case isTrue => exact .none
  case isFalse =>
    apply rel_find? (fun _ _ hc => by rw [Respells.kind hc])
    exact h.namedChildren_of_ne (by rw [hn]; decide)

theorem returned? (h : Alike a n n') : Option.Rel (Alike a) n.returned? n'.returned? :=
  rel_find? (fun _ _ hc => by rw [Alike.kind hc]) h.namedChildren

theorem definedName (h : Alike a n n')
    (hn : n.kind.isFunctionLike = true ∨ n.kind.isClassLike = true) :
    (n.child? .name).map text = (n'.child? .name).map text := by
  apply map_eq_of_rel (h.child?_of_ne (r := .name) (by decide))
  intro c c' hc hrespells
  apply hrespells.text_of_isName
  have hname : n.kind ≠ .name := by
    intro hname
    rw [hname] at hn
    rcases hn with hn | hn <;> cases hn
  exact (h.respells (.inl hname)).definedName hn c (mem_children_of_child? hc) (role_of_child? hc)

end Alike

end Node

end Php

end PluginAudit
