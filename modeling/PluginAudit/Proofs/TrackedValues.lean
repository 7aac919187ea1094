import PluginAudit.Proofs.TrackedWrites
import PluginAudit.Proofs.StringBuilding

namespace PluginAudit.Php

/-- The values of running code, as far as texts are concerned. -/
structure Runtime where
  Value : Type
  text : String → Value
  /-- The text that a value is joined as. -/
  shown : Value → String
  null : Value
  shown_text : ∀ s, shown (text s) = s

abbrev Runtime.Store (rt : Runtime) := String → rt.Value

namespace Node

/-- Whether code has to run for the value of a string. -/
def holdsCode (n : Node) : Bool :=
  (n.kind == .encapsedString || n.kind == .heredoc) && !n.namedChildren.all isPlainPart

/-- The string is taken for a literal although it holds code. -/
def HidesCode (n : Node) : Prop :=
  n.holdsCode = true ∧ n.literal?.isSome = true

instance (n : Node) : Decidable n.HidesCode :=
  inferInstanceAs (Decidable (_ ∧ _))

/-- Only a heredoc can hide its code. -/
theorem HidesCode.heredoc {n : Node} (h : n.HidesCode) : n.kind = .heredoc := by
  obtain ⟨hcode, hliteral⟩ := h
  rw [holdsCode, Bool.and_eq_true, Bool.or_eq_true, beq_iff_eq, beq_iff_eq, Bool.not_eq_true'] at hcode
  obtain ⟨hkind | hkind, hparts⟩ := hcode
  · have hu : n.unwrap = n := unwrap_of_kind (by rw [hkind]; decide)
    simp [Node.literal?, hu, hkind, hparts] at hliteral
  · exact hkind

def isAssignment (n : Node) : Bool :=
  n.kind == .assignmentExpression || n.kind == .augmentedAssignmentExpression ||
    n.kind == .referenceAssignmentExpression

/-- No assignment stands in the node. -/
def Quiet (n : Node) : Prop :=
  ∀ d ∈ n.preorder, d.isAssignment = false

/-- An expression that is no text of its own, no variable and no concatenation. -/
structure Foreign (n : Node) : Prop where
  code : n.kind.isString = true → n.holdsCode = true ∨ n.literal? = none
  not_variable : n.kind ≠ .variableName
  not_concat : n.isConcat = false
  not_parentheses : n.kind ≠ .parenthesizedExpression

/-- The values that an expression can have: a literal has that of its text, and what comes from a
request or from other code is not foreseen. -/
inductive Evaluates (rt : Runtime) (σ : rt.Store) : Node → rt.Value → Prop where
  | literal {n : Node} {s : String} : n.kind.isString = true → n.holdsCode = false →
      n.literal? = some s → Evaluates rt σ n (rt.text s)
  | var {n : Node} {x : String} : n.IsVariable x → x ∉ superglobals → Evaluates rt σ n (σ x)
  | request {n : Node} (v : rt.Value) : n.ReadsRequest → Evaluates rt σ n v
  | concat {n left right : Node} {a b : rt.Value} : n.isConcat = true →
      n.child? .left = some left → n.child? .right = some right →
      Evaluates rt σ left a → Evaluates rt σ right b →
      Evaluates rt σ n (rt.text (rt.shown a ++ rt.shown b))
  | parentheses {n m : Node} {comments rest : List Node} {v : rt.Value} :
      n.kind = .parenthesizedExpression → n.namedChildren = comments ++ m :: rest →
      (∀ c ∈ comments, c.kind = .comment) → Evaluates rt σ m v → Evaluates rt σ n v
  | foreign {n : Node} (v : rt.Value) : n.Foreign → Evaluates rt σ n v

/-- What a statement, or the expression that it consists of, leaves in the variables. An assignment
reads its right side before it writes, an operator other than `.=` can leave anything. -/
inductive Executes (rt : Runtime) : Node → rt.Store → rt.Store → Prop where
  | assign {n left right : Node} {x : String} {σ : rt.Store} {v : rt.Value} :
      n.kind = .assignmentExpression → (∀ c ∈ n.children, c.Quiet) →
      n.child? .left = some left → left.IsVariable x → n.child? .right = some right →
      Evaluates rt σ right v → Executes rt n σ (Function.update σ x v)
  | join {n left op right : Node} {x : String} {σ : rt.Store} {v : rt.Value} :
      n.kind = .augmentedAssignmentExpression → (∀ c ∈ n.children, c.Quiet) →
      n.child? .left = some left → left.IsVariable x → n.child? .operator = some op →
      op.text = ".=" → n.child? .right = some right → Evaluates rt σ right v →
      Executes rt n σ (Function.update σ x (rt.text (rt.shown (σ x) ++ rt.shown v)))
  | combine {n left op : Node} {x : String} {σ : rt.Store} (v : rt.Value) :
      n.kind = .augmentedAssignmentExpression → (∀ c ∈ n.children, c.Quiet) →
      n.child? .left = some left → left.IsVariable x → n.child? .operator = some op →
      op.text ≠ ".=" → Executes rt n σ (Function.update σ x v)
  | unset {n : Node} {xs : List String} {σ : rt.Store} :
      n.kind = .unsetStatement → (∀ c ∈ n.children, c.Quiet) →
      List.Forall₂ IsVariable (n.namedChildren.filter (·.kind != .comment)) xs →
      Executes rt n σ (fun y => if y ∈ xs then rt.null else σ y)
  | statement {n m : Node} {before after : List Node} {σ τ : rt.Store} :
      n.kind = .expressionStatement → n.children = before ++ m :: after →
      (∀ c ∈ before ++ after, c.Quiet) → Executes rt m σ τ → Executes rt n σ τ

inductive Run (rt : Runtime) : List Node → rt.Store → rt.Store → Prop where
  | nil {σ : rt.Store} : Run rt [] σ σ
  | cons {n : Node} {ns : List Node} {σ τ υ : rt.Store} :
      Executes rt n σ τ → Run rt ns τ υ → Run rt (n :: ns) σ υ

end Node

/-- The text holds no mark of something unknown. -/
def Unmarked (s : String) : Prop :=
  Text.contains s dynamicMark = false ∧ Text.contains s superglobalMark = false

instance (s : String) : Decidable (Unmarked s) :=
  inferInstanceAs (Decidable (_ ∧ _))

namespace Unmarked

variable {s t : String}

theorem append (h : Unmarked (s ++ t)) : Unmarked s ∧ Unmarked t := by
  have hleft : ∀ mark, Text.contains (s ++ t) mark = false → Text.contains s mark = false := by
    intro mark hmark
    by_contra hs
    rw [Text.contains_append_left (by simpa using hs)] at hmark
    cases hmark
  have hright : ∀ mark, Text.contains (s ++ t) mark = false → Text.contains t mark = false := by
    intro mark hmark
    by_contra ht
    rw [Text.contains_append_right (by simpa using ht)] at hmark
    cases hmark
  exact ⟨⟨hleft _ h.1, hleft _ h.2⟩, ⟨hright _ h.1, hright _ h.2⟩⟩

theorem not_dynamic (h : Unmarked dynamicMark) : False := by
  rw [Unmarked, Text.contains_self] at h
  cases h.1

theorem not_superglobal (h : Unmarked superglobalMark) : False := by
  rw [Unmarked, Text.contains_self superglobalMark] at h
  cases h.2

end Unmarked

namespace Facts

variable {rt : Runtime} {f : Facts} {names : Names} {σ τ : rt.Store} {n : Node} {v : rt.Value}
  {s : String} {x : String}

/-- Every text without marks that is told of a variable is what the variable holds. -/
def Sound (f : Facts) (σ : rt.Store) : Prop :=
  ∀ x s, f.values.find? x = some s → Unmarked s → σ x = rt.text s

theorem Sound.forget (h : f.Sound σ) (x : String) : (f.forget x).Sound σ := by
  intro y s hs
  by_cases hy : y = x
  · rw [hy, show (f.forget x).values.find? x = none from Table.find?_erase_self _ _] at hs
    cases hs
  · rw [f.find?_forget_of_ne hy] at hs
    exact h y s hs

theorem describePart_marked (hliteral : n.literal? = none) (hvariable : n.plainVariable? = none) :
    ¬ Unmarked (f.describePart n) := by
  rw [describePart, hliteral, hvariable]
  dsimp only [Option.bind_none]
  split
  · exact Unmarked.not_superglobal
  · exact Unmarked.not_dynamic

/-- What is told of a right side that is no literal, no variable and no concatenation is marked. -/
theorem told?_marked (hliteral : n.literal? = none) (hvariable : n.plainVariable? = none)
    (hconcat : n.unwrap.isConcat = false) (hs : f.told? n = some s) : ¬ Unmarked s := by
  rw [told?_of_not_var (by simp [hvariable]), describe] at hs
  simp only [Node.literal?_unwrap, hliteral, hconcat, Bool.false_eq_true, if_false] at hs
  split at hs
  · obtain rfl := Option.some.inj hs
    exact Unmarked.not_superglobal
  · cases hs

end Facts

namespace Node

variable {rt : Runtime} {σ : rt.Store} {n m : Node} {v : rt.Value}

theorem Foreign.literal? (h : n.Foreign) (hcode : ¬ n.HidesCode) : n.literal? = none := by
  by_cases hstring : n.kind.isString = true
  · obtain hholds | hnone := h.code hstring
    · simpa [HidesCode, hholds] using hcode
    · exact hnone
  · refine literal?_of_not_string ?_
    rw [unwrap_of_kind h.not_parentheses]
    simpa using hstring

theorem Foreign.plainVariable? (h : n.Foreign) : n.plainVariable? = none := by
  refine plainVariable?_of_kind ?_
  rw [unwrap_of_kind h.not_parentheses]
  exact h.not_variable

theorem foreign_of_comment (h : n.kind = .comment) : n.Foreign where
  code hs := by rw [h] at hs; cases hs
  not_variable := by rw [h]; decide
  not_concat := by simp [isConcat, h]
  not_parentheses := by rw [h]; decide

variable {f : Facts} {s : String}

theorem Foreign.parts_marked (h : n.Foreign) (hliteral : n.literal? = none) :
    ¬ Unmarked (String.join (n.concatParts.map f.describePart)) := by
  have hu : n.unwrap = n := unwrap_of_kind h.not_parentheses
  rw [Facts.join_parts (by rw [hu, h.not_concat]), hu]
  exact Facts.describePart_marked hliteral h.plainVariable?

theorem Foreign.told_marked (h : n.Foreign) (hliteral : n.literal? = none)
    (hs : f.told? n.unwrap = some s) : ¬ Unmarked s := by
  have hu : n.unwrap = n := unwrap_of_kind h.not_parentheses
  rw [hu] at hs
  exact Facts.told?_marked hliteral h.plainVariable? (by rw [hu, h.not_concat]) hs

theorem not_hidesCode_below {c : Node} (hcode : ∀ d ∈ n.preorder, ¬ d.HidesCode)
    (hc : c ∈ n.children) : ∀ d ∈ c.preorder, ¬ d.HidesCode :=
  fun d hd => hcode d (mem_preorder_trans n (mem_preorder_of_child hc) hd)

/-- The described parts of an expression make up the text of its value, unless one is marked. -/
theorem Evaluates.shown_parts (h : n.Evaluates rt σ v) (hf : f.Sound σ)
    (hcode : ∀ d ∈ n.preorder, ¬ d.HidesCode)
    (hu : Unmarked (String.join (n.concatParts.map f.describePart))) :
    rt.shown v = String.join (n.concatParts.map f.describePart) := by
  induction h with
  | @literal n s hstring _ hs =>
    have hunwrap : n.unwrap = n := unwrap_of_kind fun hk => by rw [hk] at hstring; cases hstring
    have hconcat : n.unwrap.isConcat = false := by
      rw [hunwrap]
      cases hk : n.kind <;> simp_all [isConcat, Kind.isString]
    rw [Facts.join_parts hconcat, hunwrap, Facts.describePart_of_literal hs, rt.shown_text]
  | @var n x hx hmem =>
    rw [Facts.join_parts (by simp [hx.unwrap, isConcat, hx.1]), hx.unwrap,
      Facts.describePart_of_variable hx hmem] at hu ⊢
    cases hknown : f.values.find? x with
    | none =>
      rw [hknown] at hu
      exact hu.not_dynamic.elim
    | some known =>
      rw [hknown, Option.getD_some] at hu
      rw [hf x known hknown hu, rt.shown_text, Option.getD_some]
  | @request n _ hr =>
    rw [Facts.join_parts (by rw [hr.unwrap, hr.isConcat]), hr.unwrap,
      Facts.describePart_of_request hr] at hu
    exact hu.not_superglobal.elim
  | @concat n left right a b hn hl hr _ _ iha ihb =>
    rw [concatParts_of_concat hn hl hr, List.map_append, String.join_append] at hu ⊢
    rw [rt.shown_text,
      iha (not_hidesCode_below hcode (mem_children_of_child? hl)) hu.append.1,
      ihb (not_hidesCode_below hcode (mem_children_of_child? hr)) hu.append.2]
  | @parentheses n m comments rest v hk hchildren hcomments _ ih =>
    -- a comment in front is taken for the expression, and then marked
    obtain ⟨c, hmem, hc, rfl | hcomment⟩ := head_of_comments hchildren hcomments
    · rw [concatParts_of_parentheses hk hc] at hu ⊢
      exact ih (not_hidesCode_below hcode hmem) hu
    · have hforeign := foreign_of_comment hcomment
      rw [concatParts_of_parentheses hk hc] at hu
      exact absurd hu
        (hforeign.parts_marked (hforeign.literal? (hcode c (mem_preorder_of_child hmem))))
  | @foreign n v hn =>
    exact absurd hu (hn.parts_marked (hn.literal? (hcode n n.mem_preorder_self)))

/-- What is told of a right side is the text of its value, unless it is marked. -/
theorem Evaluates.eq_told (h : n.Evaluates rt σ v) (hf : f.Sound σ)
    (hcode : ∀ d ∈ n.preorder, ¬ d.HidesCode) (hs : f.told? n.unwrap = some s) (hu : Unmarked s) :
    v = rt.text s := by
  induction h with
  | @literal n t _ _ ht =>
    rw [Facts.told?_of_literal ht] at hs
    cases hs
    rfl
  | @var n x hx hmem =>
    rw [hx.unwrap, Facts.told?_of_var hx hmem] at hs
    exact hf x s hs hu
  | @request n _ hr =>
    rw [hr.unwrap] at hs
    rw [Facts.told?_of_not_var fun x => hr.mem_of_plainVariable?, Facts.describe] at hs
    simp only [hr.unwrap, hr.literal?, hr.isSome_superglobal?, if_true, Option.some.injEq] at hs
    subst hs
    exact hu.not_superglobal.elim
  | @concat n left right a b hn hl hr ha hb =>
    rw [unwrap_of_isConcat hn, Facts.told?_of_isConcat hn] at hs
    obtain rfl := Option.some.inj hs
    have hshown := (Evaluates.concat hn hl hr ha hb).shown_parts hf hcode hu
    rw [rt.shown_text] at hshown
    rw [hshown]
  | @parentheses n m comments rest v hk hchildren hcomments _ ih =>
    obtain ⟨c, hmem, hc, rfl | hcomment⟩ := head_of_comments hchildren hcomments
    · rw [unwrap_of_parentheses hk hc] at hs
      exact ih (not_hidesCode_below hcode hmem) hs
    · have hforeign := foreign_of_comment hcomment
      rw [unwrap_of_parentheses hk hc] at hs
      exact absurd hu
        (hforeign.told_marked (hforeign.literal? (hcode c (mem_preorder_of_child hmem))) hs)
  | @foreign n v hn =>
    exact absurd hu (hn.told_marked (hn.literal? (hcode n n.mem_preorder_self)) hs)

end Node

namespace Site

theorem tail_preorder (s : Site) :
    s.preorder.tail = sitesOfAll (ownerBelow s.owner s.node) s.node.kind s.node.children := by
  obtain ⟨⟨k, r, b, e, l, t, cs⟩, owner, parent⟩ := s
  rfl

theorem sitesOfAll_append (owner : Option Node) (parent : Kind) (before after : List Node) :
    sitesOfAll owner parent (before ++ after) =
      sitesOfAll owner parent before ++ sitesOfAll owner parent after := by
  induction before with
  | nil => rfl
  | cons c rest ih => rw [List.cons_append, sitesOfAll, sitesOfAll, ih, List.append_assoc]

theorem quiet_sitesOfAll {owner : Option Node} {parent : Kind} {ns : List Node}
    (h : ∀ c ∈ ns, c.Quiet) : ∀ s ∈ sitesOfAll owner parent ns, s.node.isAssignment = false := by
  intro s hs
  have hmem : s.node ∈ Node.preorderAll ns := by
    rw [← map_node_sitesOfAll owner parent]
    exact List.mem_map_of_mem hs
  obtain ⟨c, hc, hd⟩ := Node.mem_preorderAll.1 hmem
  exact h c hc _ hd

end Site

namespace Facts

variable {rt : Runtime} {f g : Facts} {names : Names} {σ τ : rt.Store} {s : Site} {n : Node}
  {v : rt.Value} {x : String}

/-- A write to one variable keeps the facts sound if what is then told of it is its new value. -/
theorem Sound.update (h : f.Sound σ) (hothers : ∀ y, y ≠ x → g.values.find? y = f.values.find? y)
    (hx : ∀ t, g.values.find? x = some t → Unmarked t → v = rt.text t) :
    g.Sound (Function.update σ x v) := by
  intro y t ht hu
  by_cases hy : y = x
  · subst hy
    rw [Function.update_self]
    exact hx t ht hu
  · rw [hothers y hy] at ht
    rw [Function.update_of_ne hy]
    exact h y t ht hu

theorem append_of_other {left op : Node} (hleft : n.child? .left = some left)
    (hx : left.IsVariable x) (hop : n.child? .operator = some op) (htext : op.text ≠ ".=") :
    f.append n = f.forget x := by
  simp [append, hleft, hx.plainVariable?, hx.2.2.1, hop, htext]

theorem find?_foldl_forget {xs : List String} (hxs : "" ∉ xs) (y : String) :
    (xs.foldl (fun (f : Facts) y => if y == "" then f else f.forget y) f).values.find? y =
      if y ∈ xs then none else f.values.find? y := by
  induction xs generalizing f with
  | nil => simp
  | cons z rest ih =>
    rw [List.mem_cons, not_or] at hxs
    have hempty : (z == "") = false := by simpa using Ne.symm hxs.1
    rw [List.foldl_cons, ih hxs.2, hempty]
    simp only [Bool.false_eq_true, if_false, find?_forget]
    by_cases hz : y = z <;> by_cases hy : y ∈ rest <;> simp [hz, hy]

/-- A node without an assignment can only make variables unknown. -/
theorem Sound.observe_quiet (h : f.Sound σ) (hs : s.node.isAssignment = false) :
    (f.observe names s).Sound σ := by
  fun_cases observe f names s with
  | case1 hkind | case2 hkind | case3 hkind => simp [Node.isAssignment, hkind] at hs
  | case4 => exact of_foldl_forget (p := fun g => g.Sound σ) h fun _ hg y _ => hg.forget y
  | case5 => exact h

theorem Sound.after_quiet {sites : List Site} (h : f.Sound σ)
    (hs : ∀ s ∈ sites, s.node.isAssignment = false) : (f.after names sites).Sound σ := by
  induction sites generalizing f with
  | nil => exact h
  | cons s rest ih =>
    obtain ⟨hs, hrest⟩ := List.forall_mem_cons.1 hs
    exact ih (h.observe_quiet hs) hrest

theorem filterMap_plainVariable? {ns : List Node} {xs : List String}
    (h : List.Forall₂ Node.IsVariable (ns.filter (·.kind != .comment)) xs) :
    ns.filterMap Node.plainVariable? = xs ∧ "" ∉ xs := by
  induction ns generalizing xs with
  | nil =>
    cases h
    simp
  | cons c rest ih =>
    by_cases hc : c.kind = .comment
    · rw [List.filter_cons_of_neg (by simp [hc])] at h
      rw [List.filterMap_cons_none (Node.foreign_of_comment hc).plainVariable?]
      exact ih h
    · rw [List.filter_cons_of_pos (by simp [hc])] at h
      obtain _ | ⟨hx, hrest⟩ := h
      obtain ⟨hxs, hempty⟩ := ih hrest
      rw [List.filterMap_cons_some hx.plainVariable?, hxs, List.mem_cons, not_or]
      exact ⟨rfl, Ne.symm hx.2.2.1, hempty⟩

/-- A node whose children are quiet: the sites below it change nothing any more. -/
theorem Sound.after_preorder_quiet (h : (f.observe names s).Sound σ)
    (hs : ∀ c ∈ s.node.children, c.Quiet) : (f.after names s.preorder).Sound σ := by
  rw [s.preorder_eq_cons, s.tail_preorder, after_cons]
  exact h.after_quiet (Site.quiet_sitesOfAll hs)

theorem Sound.assign {left right : Node} (h : f.Sound σ)
    (hleft : s.node.child? .left = some left) (hx : left.IsVariable x)
    (hright : s.node.child? .right = some right) (hv : right.Evaluates rt σ v)
    (hcode : ∀ d ∈ right.preorder, ¬ d.HidesCode) :
    (f.assign names s).Sound (Function.update σ x v) := by
  refine h.update (fun y hy => ?_) fun t ht hu => ?_
  · rw [find?_assign hleft hx hright, if_neg hy, f.find?_forget_of_ne hy]
  · rw [find?_assign hleft hx hright, if_pos rfl] at ht
    exact hv.eq_told (h.forget x) hcode ht hu

theorem Sound.join {left op right : Node} (h : f.Sound σ)
    (hleft : n.child? .left = some left) (hx : left.IsVariable x)
    (hop : n.child? .operator = some op) (htext : op.text = ".=")
    (hright : n.child? .right = some right) (hv : right.Evaluates rt σ v)
    (hcode : ∀ d ∈ right.preorder, ¬ d.HidesCode) :
    (f.append n).Sound (Function.update σ x (rt.text (rt.shown (σ x) ++ rt.shown v))) := by
  refine h.update (fun y hy => ?_) fun t ht hu => ?_
  · rw [find?_append hleft hx hright hop htext, if_neg hy]
  · rw [find?_append hleft hx hright hop htext, if_pos rfl] at ht
    obtain ⟨known, hknown, ht⟩ := Option.bind_eq_some_iff.1 ht
    obtain ⟨extra, hextra, rfl⟩ := Option.map_eq_some_iff.1 ht
    have hheld : σ x = rt.text known := h x known hknown hu.append.1
    have hright' : v = rt.text extra := hv.eq_told h hcode (told?_of_literal hextra) hu.append.2
    rw [hheld, hright', rt.shown_text, rt.shown_text]

theorem Sound.executes (hrun : n.Executes rt σ τ) (hn : s.node = n) (h : f.Sound σ)
    (hcode : ∀ d ∈ n.preorder, ¬ d.HidesCode) : (f.after names s.preorder).Sound τ := by
  induction hrun generalizing f s with
  | @assign n left right x σ v hkind hquiet hleft hx hright hv =>
    subst hn
    have hobserve : f.observe names s = f.assign names s := by rw [Facts.observe, hkind]
    refine Sound.after_preorder_quiet ?_ hquiet
    rw [hobserve]
    exact h.assign hleft hx hright hv
      (Node.not_hidesCode_below hcode (Node.mem_children_of_child? hright))
  | @join n left op right x σ v hkind hquiet hleft hx hop htext hright hv =>
    subst hn
    have hobserve : f.observe names s = f.append s.node := by rw [Facts.observe, hkind]
    refine Sound.after_preorder_quiet ?_ hquiet
    rw [hobserve]
    exact h.join hleft hx hop htext hright hv
      (Node.not_hidesCode_below hcode (Node.mem_children_of_child? hright))
  | @combine n left op x σ v hkind hquiet hleft hx hop htext =>
    subst hn
    have hobserve : f.observe names s = f.append s.node := by rw [Facts.observe, hkind]
    refine Sound.after_preorder_quiet ?_ hquiet
    rw [hobserve, append_of_other hleft hx hop htext]
    refine h.update (fun y hy => f.find?_forget_of_ne hy) fun t ht => ?_
    rw [find?_forget, if_pos rfl] at ht
    cases ht
  | @unset n xs σ hkind hquiet hxs =>
    subst hn
    obtain ⟨hnames, hempty⟩ := filterMap_plainVariable? hxs
    refine Sound.after_preorder_quiet ?_ hquiet
    intro y t ht hu
    rw [Facts.observe, hkind] at ht
    dsimp only at ht
    rw [hnames, find?_foldl_forget hempty] at ht
    split at ht
    case isTrue => cases ht
    case isFalse hy =>
      exact (if_neg hy).trans (h y t ht hu)
  | @statement n m before after σ τ hkind hchildren hquiet _ ih =>
    subst hn
    have hobserve : f.observe names s = f := by rw [Facts.observe, hkind]
    have hm : m ∈ s.node.children := by simp [hchildren]
    -- only the expression among the children writes
    rw [s.preorder_eq_cons, s.tail_preorder, after_cons, hobserve, hchildren, Site.sitesOfAll_append,
      after_append, Site.sitesOfAll, after_append]
    generalize Site.ownerBelow s.owner s.node = owner
    have hbefore : (f.after names (Site.sitesOfAll owner s.node.kind before)).Sound σ :=
      h.after_quiet (Site.quiet_sitesOfAll fun c hc => hquiet c (List.mem_append_left _ hc))
    have hinner := @ih _ ⟨m, owner, some s.node.kind⟩ rfl hbefore
      (Node.not_hidesCode_below hcode hm)
    exact hinner.after_quiet
      (Site.quiet_sitesOfAll fun c hc => hquiet c (List.mem_append_right _ hc))

theorem Sound.run {statements : List Site} (hrun : Node.Run rt (statements.map Site.node) σ τ)
    (h : f.Sound σ) (hcode : ∀ s ∈ statements, ∀ d ∈ s.node.preorder, ¬ d.HidesCode) :
    (f.after names (statements.flatMap Site.preorder)).Sound τ := by
  induction statements generalizing f σ with
  | nil =>
    cases hrun
    exact h
  | cons s rest ih =>
    obtain ⟨hs, hrest⟩ := List.forall_mem_cons.1 hcode
    rw [List.map_cons] at hrun
    obtain _ | ⟨hfirst, hlater⟩ := hrun
    rw [List.flatMap_cons, after_append]
    exact ih hlater (h.executes hfirst rfl hs) hrest

theorem sound_empty (σ : rt.Store) : Facts.empty.Sound σ := by
  intro x s hs
  cases hs

end Facts

/-- At most one of text, class name and class is known of a variable, and none of them without the
expression it was assigned. -/
structure Known.Coherent (k : Known) : Prop where
  value : k.value.isSome = true → k.classLiteral = none ∧ k.type = none
  classLiteral : k.classLiteral.isSome = true → k.type = none
  node : k.node = none → k.value = none ∧ k.classLiteral = none ∧ k.type = none

namespace Facts

variable {f : Facts} {names : Names} {s : Site} {x : String}

def Coherent (f : Facts) : Prop :=
  ∀ x, (f.about x).Coherent

theorem coherent_empty : Facts.empty.Coherent := by
  intro x
  constructor <;> simp [about, empty]

theorem about_forget_self : (f.forget x).about x = ⟨none, none, none, none⟩ := by
  simp [about, forget, Table.find?_erase_self]

theorem Coherent.forget (h : f.Coherent) (x : String) : (f.forget x).Coherent := by
  intro y
  by_cases hy : y = x
  · rw [hy, about_forget_self]
    constructor <;> simp
  · rw [about_forget_of_ne hy]
    exact h y

theorem describe_of_class {right : Node} (h : right.kind = .classConstantAccessExpression ∨
    right.kind = .objectCreationExpression) : f.describe right = none := by
  obtain ⟨k, r, b, e, l, t, cs⟩ := right
  obtain rfl | rfl : k = .classConstantAccessExpression ∨ k = .objectCreationExpression := h <;> rfl

theorem learnClass_of_other {right : Node} (h : ¬ (right.kind = .classConstantAccessExpression ∨
    right.kind = .objectCreationExpression)) : f.learnClass names x right = f := by
  rw [not_or] at h
  rw [learnClass]
  split
  case h_1 hk => exact absurd hk h.1
  case h_2 hk => exact absurd hk h.2
  case h_3 => rfl

/-- What an expression tells of a variable of which nothing but the expression is known. -/
theorem coherent_learnt {site : Site} (h : f.about x = ⟨none, none, none, some site⟩) (right : Node) :
    ((assign.learnValue x right (f.learnClass names x right)).about x).Coherent := by
  obtain ⟨hvalue, hliteral, htype, hnode⟩ := (Known.mk.injEq ..).mp h
  by_cases hclass : right.kind = .classConstantAccessExpression ∨
      right.kind = .objectCreationExpression
  · rw [assign.learnValue, describe_of_class hclass]
    constructor <;> fun_cases learnClass <;>
      simp [about, hvalue, hliteral, htype, hnode, Table.find?_put_self]
  · rw [learnClass_of_other hclass, assign.learnValue]
    cases f.describe right with
    | none => constructor <;> simp [h]
    | some v =>
      constructor <;> simp [about, hliteral, htype, hnode]

theorem find?_copy_self {t : Table String} (hx : t.find? x = none) (source : String) :
    (copy t source x).find? x = t.find? source := by
  rw [copy]
  exact (find?_learnt hx _ x).trans (if_pos rfl)

theorem about_bound_self (right : Site) :
    (f.bound x right).about x = ⟨none, none, none, some right⟩ := by
  simp [about, bound, forget, Table.find?_erase_self, Table.find?_put_self]

theorem Coherent.bound (h : f.Coherent) (x : String) (right : Site) : (f.bound x right).Coherent := by
  intro y
  by_cases hy : y = x
  · rw [hy, about_bound_self]
    constructor <;> simp
  · rw [about_bound_of_ne right hy]
    exact h y

theorem about_boundTo_self (right : Site) (source : String) :
    (f.boundTo x right source).about x =
      { (f.bound x right).about source with node := some right } := by
  obtain ⟨hvalue, hliteral, htype, hnode⟩ :=
    (Known.mk.injEq ..).mp (about_bound_self (f := f) (x := x) right)
  simp only [about, boundTo, find?_copy_self hvalue, find?_copy_self hliteral,
    find?_copy_self htype, hnode]

theorem Coherent.assign (h : f.Coherent) : (f.assign names s).Coherent := by
  intro y
  by_cases hy : (s.node.child? .left).bind Node.plainVariable? = some y
  case neg =>
    rw [about_assign_of_not_left hy]
    exact h y
  case pos =>
    obtain hf | hf | ⟨right, hf⟩ | ⟨right, source, hf⟩ :
        f.assign names s = f ∨ f.assign names s = f.forget y ∨ _ := assign_cases hy
    · rw [hf]
      exact h y
    · rw [hf]
      exact h.forget y y
    · rw [hf]
      exact coherent_learnt (about_bound_self right) right.node
    · have hsource := h.bound y right source
      rw [hf, about_boundTo_self]
      exact ⟨hsource.value, hsource.classLiteral, nofun⟩

theorem Coherent.append {n : Node} (h : f.Coherent) : (f.append n).Coherent := by
  fun_cases Facts.append f n with
  | case1 | case2 => exact h
  | case3 x _ _ _ known extra _ hknown =>
    intro y
    by_cases hy : y = x
    · subst hy
      have hvalue : (f.about y).value = some known := hknown
      obtain ⟨hliteral, htype⟩ := (h y).value (by simp [hvalue])
      have hnode : (f.about y).node ≠ none := fun hn => by simp [(h y).node hn] at hvalue
      exact ⟨fun _ => ⟨hliteral, htype⟩, fun _ => htype, fun hn => absurd hn hnode⟩
    · have hothers : ({ f with values := f.values.put x (known ++ extra) } : Facts).about y =
          f.about y := by
        simp [about, Table.find?_put_of_ne _ _ _ _ (Ne.symm hy)]
      rw [hothers]
      exact h y
  | case4 name => exact h.forget name

theorem Coherent.observe (h : f.Coherent) : (f.observe names s).Coherent := by
  fun_cases Facts.observe f names s with
  | case1 | case2 => exact h.assign
  | case3 => exact h.append
  | case4 => exact of_foldl_forget (p := Facts.Coherent) h fun _ hg y _ => hg.forget y
  | case5 => exact h

theorem Coherent.after (h : f.Coherent) (sites : List Site) : (f.after names sites).Coherent := by
  induction sites generalizing f with
  | nil => exact h
  | cons s rest ih => exact ih h.observe

end Facts

/-- After straight-line code in which no heredoc hides code, every text without marks that is told of a
variable is what the variable holds. After any code at all, at most one of text, class name and class
is told of a variable, and none without the expression it was assigned. -/
theorem tracked_values_sound (statements : List Site) (names : Names) :
    let facts := Facts.empty.after names (statements.flatMap Site.preorder)
    (∀ (rt : Runtime) (σ τ : rt.Store), Node.Run rt (statements.map Site.node) σ τ →
      (∀ s ∈ statements, ∀ d ∈ s.node.preorder, ¬ d.HidesCode) →
      ∀ x s, facts.values.find? x = some s → Unmarked s → τ x = rt.text s) ∧
    ∀ x, (facts.about x).Coherent :=
  ⟨fun _ σ _ hrun hcode => (Facts.sound_empty σ).run hrun hcode,
    Facts.coherent_empty.after _⟩

section Sources

/-- Texts, and a value that is none. -/
def textRuntime : Runtime where
  Value := Option String
  text := some
  shown v := v.getD ""
  null := none
  shown_text _ := rfl

instance (n : Node) : Decidable n.Quiet :=
  inferInstanceAs (Decidable (∀ _ ∈ _, _))

/-- The expression that a statement consists of. -/
def Node.statement? (n : Node) : Option Node :=
  if n.kind = .expressionStatement ∧ ∀ c ∈ n.children.tail, c.Quiet then n.children.head? else none

theorem Node.executes_statement {rt : Runtime} {σ τ : rt.Store} {n m : Node}
    (hm : n.statement? = some m) (h : m.Executes rt σ τ) : n.Executes rt σ τ := by
  rw [statement?] at hm
  split at hm
  case isTrue hn =>
    have hchildren : n.children = [] ++ m :: n.children.tail := (List.cons_head?_tail hm).symm
    exact .statement hn.1 hchildren (by simpa using hn.2) h
  case isFalse => cases hm

/-- The statement assigns such an expression to the variable. -/
def Node.Assigns (n : Node) (x : String) (p : Node → Prop) : Prop :=
  ∃ m ∈ n.statement?, m.kind = .assignmentExpression ∧ (∀ c ∈ m.children, c.Quiet) ∧
    ∃ left ∈ m.child? .left, (left.kind = .variableName ∧ left.text = "$" ++ x) ∧
    ∃ right ∈ m.child? .right, p right

instance (n : Node) (x : String) (p : Node → Prop) [DecidablePred p] : Decidable (n.Assigns x p) :=
  inferInstanceAs (Decidable (∃ _ ∈ _, _))

theorem Node.Assigns.executes {rt : Runtime} {σ : rt.Store} {n : Node} {x : String}
    {p : Node → Prop} {v : rt.Value} (h : n.Assigns x p) (hx : x ≠ "" ∧ '$' ∉ x.toList)
    (hp : ∀ right, p right → right.Evaluates rt σ v) :
    n.Executes rt σ (Function.update σ x v) := by
  obtain ⟨m, hm, hkind, hquiet, left, hleft, ⟨hvariable, htext⟩, right, hright, hvalue⟩ := h
  exact executes_statement hm (.assign hkind hquiet hleft ⟨hvariable, htext, hx⟩ hright (hp _ hvalue))

def statementsOfText (source : String) : List Site :=
  let root := (Source.ofBytes source.toUTF8).tree
  (root.children.filter (·.kind == .expressionStatement)).map (Site.root root).below

def Node.IsLiteral (s : String) (n : Node) : Prop :=
  n.kind.isString = true ∧ n.holdsCode = false ∧ n.literal? = some s

instance (s : String) : DecidablePred (Node.IsLiteral s) :=
  fun _ => inferInstanceAs (Decidable (_ ∧ _))

def copying : List Site := statementsOfText "<?php $a='system';$b=$a;"

theorem copied_value_sound :
    let facts := Facts.empty.after default (copying.flatMap Site.preorder)
    ∃ τ, Node.Run textRuntime (copying.map Site.node) (fun _ => none) τ ∧
      facts.values.find? "b" = some "system" ∧ τ "b" = some "system" ∧
      (facts.about "b").Coherent := by
  have hfound : copying.length = 2 ∧
      (∃ s ∈ copying[0]?, s.node.Assigns "a" (Node.IsLiteral "system")) ∧
      (∃ s ∈ copying[1]?, s.node.Assigns "b" fun n => n.kind = .variableName ∧ n.text = "$a") ∧
      (∀ s ∈ copying, ∀ d ∈ s.node.preorder, ¬ d.HidesCode) ∧
      (Facts.empty.after default (copying.flatMap Site.preorder)).values.find? "b" =
        some "system" := by
    decide +kernel
  obtain ⟨hlength, hfirst, hsecond, hcode, htold⟩ := hfound
  obtain ⟨hsound, hcoherent⟩ := tracked_values_sound copying default
  obtain ⟨a, b, hab⟩ := List.length_eq_two.1 hlength
  have hrun : ∃ τ, Node.Run textRuntime (copying.map Site.node) (fun _ => none) τ := by
    rw [hab] at hfirst hsecond ⊢
    obtain ⟨_, ⟨⟩, hfirst⟩ := hfirst
    obtain ⟨_, ⟨⟩, hsecond⟩ := hsecond
    have hvariable : ∀ n : Node, n.kind = .variableName ∧ n.text = "$a" → n.IsVariable "a" :=
      fun n h => ⟨h.1, h.2, by decide, by decide⟩
    exact ⟨_, .cons (hfirst.executes (by decide) fun right h => .literal h.1 h.2.1 h.2.2)
      (.cons (hsecond.executes (by decide) fun right h => .var (hvariable right h) (by decide)) .nil)⟩
  obtain ⟨τ, hrun⟩ := hrun
  exact ⟨τ, hrun, htold, hsound _ _ _ hrun hcode _ _ htold (by decide), hcoherent _⟩

/-- The second statement stores what `$a` holds, by a name that is computed. -/
def hidden : List Site := statementsOfText "<?php $a='system';$b=<<<X\n$\x7b'a'\x7d\nX;\n"

/-- The code in a heredoc is told as its text, if it names a variable by another expression. -/
theorem heredoc_code_told :
    (∃ τ, Node.Run textRuntime (hidden.map Site.node) (fun _ => none) τ ∧
      τ "a" = some "system" ∧ τ "b" = some "system") ∧
    let facts := Facts.empty.after default (hidden.flatMap Site.preorder)
    facts.values.find? "b" = some "$\x7b'a'\x7d" ∧ Unmarked "$\x7b'a'\x7d" := by
  have hfound : hidden.length = 2 ∧
      (∃ s ∈ hidden[0]?, s.node.Assigns "a" (Node.IsLiteral "system")) ∧
      (∃ s ∈ hidden[1]?, s.node.Assigns "b" fun n => n.kind = .heredoc ∧ n.holdsCode = true) ∧
      (Facts.empty.after default (hidden.flatMap Site.preorder)).values.find? "b" =
        some "$\x7b'a'\x7d" := by
    decide +kernel
  obtain ⟨hlength, hfirst, hsecond, htold⟩ := hfound
  refine ⟨?_, htold, by decide⟩
  obtain ⟨a, b, hab⟩ := List.length_eq_two.1 hlength
  rw [hab] at hfirst hsecond ⊢
  obtain ⟨_, ⟨⟩, hfirst⟩ := hfirst
  obtain ⟨_, ⟨⟩, hsecond⟩ := hsecond
  have hforeign : ∀ n : Node, n.kind = .heredoc ∧ n.holdsCode = true → n.Foreign := by
    rintro n ⟨hkind, hcode⟩
    exact ⟨fun _ => .inl hcode, by rw [hkind]; decide, by simp [Node.isConcat, hkind],
      by rw [hkind]; decide⟩
  refine ⟨_, .cons (hfirst.executes (by decide) fun right h => .literal h.1 h.2.1 h.2.2)
    (.cons (hsecond.executes (by decide) fun right h =>
      .foreign (textRuntime.text "system") (hforeign right h)) .nil), rfl, rfl⟩

end Sources

end PluginAudit.Php
