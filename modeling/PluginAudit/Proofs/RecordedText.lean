import PluginAudit.Php.Facts
import PluginAudit.Proofs.Trees

namespace PluginAudit.Php

namespace Node

def IsVariable (n : Node) (x : String) : Prop :=
  n.kind = .variableName ∧ n.text = "$" ++ x ∧ x ≠ "" ∧ '$' ∉ x.toList

/-- A request variable, or an element of what is read from one. -/
inductive ReadsRequest : Node → Prop where
  | var {n : Node} {x : String} : n.IsVariable x → x ∈ superglobals → ReadsRequest n
  | subscript {n m : Node} : n.kind = .subscriptExpression → n.namedChildren.head? = some m →
      ReadsRequest m → ReadsRequest n

theorem unwrap_of_isConcat {n : Node} (h : n.isConcat = true) : n.unwrap = n := by
  rw [isConcat, Bool.and_eq_true, beq_iff_eq] at h
  exact unwrap_of_kind (by rw [h.1]; decide)

theorem literal?_unwrap (n : Node) : n.unwrap.literal? = n.literal? := by
  rw [literal?, unwrap_unwrap, literal?]

theorem plainVariable?_of_kind {n : Node} (hk : n.unwrap.kind ≠ .variableName) :
    n.plainVariable? = none := by
  simp [plainVariable?, hk]

namespace IsVariable

variable {n : Node} {x : String}

theorem unwrap (h : n.IsVariable x) : n.unwrap = n :=
  unwrap_of_kind (by rw [h.1]; decide)

theorem plainVariable? (h : n.IsVariable x) : n.plainVariable? = some x := by
  obtain ⟨hk, ht, hne, hdollar⟩ := id h
  have hx : x.toList.dropWhile (· == '$') = x.toList := by
    cases hl : x.toList with
    | nil => rfl
    | cons c rest =>
      have : c ≠ '$' := fun hc => hdollar (by simp [hl, hc])
      simp [this]
  simp [Node.plainVariable?, h.unwrap, hk, ht, Text.trimLeft, hx]

theorem literal? (h : n.IsVariable x) : n.literal? = none :=
  literal?_of_not_string (by rw [h.unwrap, h.1]; rfl)

theorem subscriptBase (h : n.IsVariable x) : n.subscriptBase = n := by
  obtain ⟨k, r, s, e, l, t, cs⟩ := n
  obtain rfl : k = .variableName := h.1
  rfl

theorem superglobal? (h : n.IsVariable x) :
    n.superglobal? = if x ∈ superglobals then some x else none := by
  simp [Node.superglobal?, h.unwrap, h.subscriptBase, h.plainVariable?]

end IsVariable

theorem subscriptBase_first {whole m : Node} : ∀ {cs : List Node},
    cs.find? isNamed = some m → subscriptBase.first whole cs = m.subscriptBase
  | [], h => by cases h
  | c :: cs, h => by
    rw [List.find?_cons] at h
    rw [subscriptBase.first]
    split at h
    case h_1 hc =>
      cases h
      rw [if_pos hc]
    case h_2 hc =>
      rw [if_neg (by simp [hc])]
      exact subscriptBase_first h

theorem subscriptBase_of_subscript {n m : Node} (hk : n.kind = .subscriptExpression)
    (hm : n.namedChildren.head? = some m) : n.subscriptBase = m.subscriptBase := by
  obtain ⟨k, r, s, e, l, t, cs⟩ := n
  obtain rfl : k = .subscriptExpression := hk
  rw [namedChildren, List.head?_filter] at hm
  exact subscriptBase_first hm

namespace ReadsRequest

variable {n : Node}

theorem unwrap (h : n.ReadsRequest) : n.unwrap = n := by
  cases h with
  | var hx => exact hx.unwrap
  | subscript hk => exact unwrap_of_kind (by rw [hk]; decide)

theorem literal? (h : n.ReadsRequest) : n.literal? = none := by
  refine literal?_of_not_string ?_
  rw [h.unwrap]
  cases h with
  | var hx => rw [hx.1]; rfl
  | subscript hk => rw [hk]; rfl

theorem isConcat (h : n.ReadsRequest) : n.isConcat = false := by
  cases h with
  | var hx => simp [Node.isConcat, hx.1]
  | subscript hk => simp [Node.isConcat, hk]

theorem isSome_superglobal? (h : n.ReadsRequest) : n.superglobal?.isSome = true := by
  have hbase : ∃ x ∈ superglobals, n.subscriptBase.plainVariable? = some x := by
    induction h with
    | var hx hmem => exact ⟨_, hmem, by rw [hx.subscriptBase, hx.plainVariable?]⟩
    | subscript hk hm _ ih => rwa [subscriptBase_of_subscript hk hm]
  obtain ⟨x, hmem, hx⟩ := hbase
  simp [superglobal?, h.unwrap, hx, hmem]

theorem mem_of_plainVariable? (h : n.ReadsRequest) {x : String} (hx : n.plainVariable? = some x) :
    x ∈ superglobals := by
  cases h with
  | var hy hmem =>
    rw [hy.plainVariable?] at hx
    cases hx
    exact hmem
  | subscript hk =>
    have hu : n.unwrap.kind ≠ .variableName := by
      rw [unwrap_of_kind (by rw [hk]; decide), hk]
      decide
    rw [plainVariable?_of_kind hu] at hx
    cases hx

end ReadsRequest

end Node

namespace Facts

variable {f : Facts} {n : Node}

theorem describePart_of_literal {s : String} (h : n.literal? = some s) : f.describePart n = s := by
  simp [describePart, h]

theorem describePart_of_request (h : n.ReadsRequest) : f.describePart n = superglobalMark := by
  simp [describePart, h.literal?, h.isSome_superglobal?]

theorem describePart_of_variable {x : String} (h : n.IsVariable x) (hx : x ∉ Node.superglobals) :
    f.describePart n = (f.values.find? x).getD dynamicMark := by
  simp only [describePart, h.literal?, h.superglobal?, hx, h.plainVariable?, if_false,
    Option.isSome_none, Bool.false_eq_true, Option.bind_some]
  cases f.values.find? x <;> rfl

/-- The text that an assignment of an expression records. -/
def told? (f : Facts) (right : Node) : Option String :=
  match right.plainVariable? with
  | some x => if Node.superglobals.contains x then f.describe right else f.values.find? x
  | none => f.describe right

theorem told?_of_var {x : String} (h : n.IsVariable x) (hx : x ∉ Node.superglobals) :
    f.told? n = f.values.find? x := by
  simp [told?, h.plainVariable?, hx]

theorem told?_of_not_var (h : ∀ x, n.plainVariable? = some x → x ∈ Node.superglobals) :
    f.told? n = f.describe n := by
  rw [told?]
  split
  case h_1 x hx => rw [if_pos (List.contains_iff_mem.2 (h x hx))]
  case h_2 => rfl

theorem told?_of_isConcat (hn : n.isConcat = true) :
    f.told? n = some (String.join (n.concatParts.map f.describePart)) := by
  have hk : n.kind = .binaryExpression := by
    rw [Node.isConcat, Bool.and_eq_true, beq_iff_eq] at hn
    exact hn.1
  have hu := Node.unwrap_of_isConcat hn
  have hvar : n.plainVariable? = none := Node.plainVariable?_of_kind (by rw [hu, hk]; decide)
  have hliteral : n.literal? = none := Node.literal?_of_not_string (by rw [hu, hk]; rfl)
  have hrequest : n.superglobal? = none := by
    obtain ⟨k, r, s, e, l, t, cs⟩ := n
    obtain rfl : k = .binaryExpression := hk
    rfl
  rw [told?_of_not_var (by simp [hvar])]
  simp [describe, hu, hliteral, hrequest, hn]

theorem told?_of_literal {s : String} (h : n.literal? = some s) : f.told? n.unwrap = some s := by
  have hvar : n.unwrap.plainVariable? = none := by
    have hstring := Node.isString_of_literal? h
    refine Node.plainVariable?_of_kind fun hk => ?_
    rw [Node.unwrap_unwrap] at hk
    rw [hk] at hstring
    cases hstring
  rw [told?_of_not_var (by simp [hvar]), describe, Node.literal?_unwrap, Node.literal?_unwrap, h]

theorem join_parts (h : n.unwrap.isConcat = false) :
    String.join (n.concatParts.map f.describePart) = f.describePart n.unwrap := by
  rw [Node.concatParts_of_not_concat n h]
  simp

theorem find?_forget_of_ne (f : Facts) {x y : String} (h : y ≠ x) :
    (f.forget x).values.find? y = f.values.find? y :=
  Table.find?_erase_of_ne _ _ _ (Ne.symm h)

theorem find?_forget (f : Facts) (x y : String) :
    (f.forget x).values.find? y = if y = x then none else f.values.find? y := by
  by_cases h : y = x
  · rw [h, if_pos rfl]
    exact Table.find?_erase_self _ _
  · rw [if_neg h]
    exact f.find?_forget_of_ne h

/-- The class that a variable holds is no part of its text. -/
@[simp] theorem learnClass_values (f : Facts) (names : Names) (x : String) (right : Node) :
    (f.learnClass names x right).values = f.values := by
  fun_cases learnClass <;> rfl

theorem describe_congr {g : Facts} (h : f.values = g.values) (n : Node) :
    f.describe n = g.describe n := by
  have hpart : f.describePart = g.describePart := by
    funext p
    rw [describePart, describePart, h]
  rw [describe, describe, hpart]

theorem find?_learnt {t : Table String} {x : String} (hx : t.find? x = none) (told : Option String)
    (y : String) :
    Table.find? (match told with | some v => t.put x v | none => t) y =
      if y = x then told else t.find? y := by
  by_cases h : y = x
  · subst h
    cases told with
    | none => simpa using hx
    | some v => simpa using t.find?_put_self y v
  · cases told with
    | none => simp [h]
    | some v => simpa [h] using t.find?_put_of_ne x y v (Ne.symm h)

theorem find?_learnValue {x : String} (hx : f.values.find? x = none) (right : Node) (y : String) :
    (assign.learnValue x right f).values.find? y =
      if y = x then f.describe right else f.values.find? y := by
  rw [← find?_learnt hx, assign.learnValue]
  cases f.describe right <;> rfl

theorem find?_assign {names : Names} {s : Site} {left right : Node} {x : String}
    (hleft : s.node.child? .left = some left) (hx : left.IsVariable x)
    (hright : s.node.child? .right = some right) (y : String) :
    (f.assign names s).values.find? y =
      if y = x then (f.forget x).told? right.unwrap else (f.forget x).values.find? y := by
  have hnone : (f.forget x).values.find? x = none := Table.find?_erase_self _ _
  have hr : (s.child? .right).map Site.unwrap = some (s.at_ right.unwrap) := by
    simp [Site.child?, hright, Site.unwrap, Site.at_]
  simp only [assign, hleft, Option.bind_some, hx.plainVariable?, beq_iff_eq, hx.2.2.1, if_false, hr,
    told?]
  generalize hg : ({ f.forget x with nodes := _ } : Facts) = g
  have hvalues : g.values = (f.forget x).values := by rw [← hg]
  -- what is learnt of the class leaves the texts alone
  have hdescribed : (assign.learnValue x right.unwrap
      (g.learnClass names x right.unwrap)).values.find? y =
        if y = x then (f.forget x).describe right.unwrap else (f.forget x).values.find? y := by
    have hlearnt : (g.learnClass names x right.unwrap).values = (f.forget x).values := by
      rw [learnClass_values, hvalues]
    rw [find?_learnValue (by rw [hlearnt, hnone]), hlearnt, describe_congr hlearnt]
  have hnode : (s.at_ right.unwrap).node = right.unwrap := rfl
  rw [hnode]
  cases hsource : right.unwrap.plainVariable? with
  | none => exact hdescribed
  | some source =>
    by_cases hmem : Node.superglobals.contains source = true
    · simpa only [hmem, if_true] using hdescribed
    · simp only [hmem, if_false, Bool.false_eq_true]
      rw [copy]
      exact find?_learnt hnone _ y

/-- A literal is appended to what is known; nothing stays known without one. -/
theorem find?_append {n left right op : Node} {x : String}
    (hleft : n.child? .left = some left) (hx : left.IsVariable x)
    (hright : n.child? .right = some right) (hop : n.child? .operator = some op)
    (htext : op.text = ".=") (y : String) :
    (f.append n).values.find? y =
      if y = x then (f.values.find? x).bind fun known => right.literal?.map (known ++ ·)
      else f.values.find? y := by
  have hforget := f.find?_forget x y
  simp only [append, hleft, Option.bind_some, hx.plainVariable?, beq_iff_eq, hx.2.2.1, if_false, hop,
    Option.any_some, htext, hright]
  cases hknown : f.values.find? x with
  | none => simpa using hforget
  | some known =>
    cases right.literal? with
    | none => simpa using hforget
    | some extra =>
      by_cases h : y = x
      · simpa [h] using Table.find?_put_self _ _ _
      · simpa [h] using Table.find?_put_of_ne _ _ _ _ (Ne.symm h)

end Facts

end PluginAudit.Php
