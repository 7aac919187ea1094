import PluginAudit.Php.Literal
import Mathlib.Tactic.Common

namespace PluginAudit.Php.Node

theorem preorder_eq (n : Node) : n.preorder = n :: preorderAll n.children := by
  cases n
  rfl

theorem mem_preorder_self (n : Node) : n ∈ n.preorder := by
  rw [preorder_eq]
  exact List.mem_cons_self

theorem mem_preorderAll {x : Node} {ns : List Node} :
    x ∈ preorderAll ns ↔ ∃ n ∈ ns, x ∈ n.preorder := by
  induction ns with
  | nil => simp [preorderAll]
  | cons n ns ih => simp [preorderAll, ih]

mutual

theorem mem_preorder_trans : ∀ (n : Node) {m x : Node},
    m ∈ n.preorder → x ∈ m.preorder → x ∈ n.preorder
  | .mk k r s e l t cs, m, x, hm, hx => by
    rw [preorder, List.mem_cons] at hm
    rcases hm with rfl | hm
    · exact hx
    · rw [preorder]
      exact List.mem_cons_of_mem _ (mem_preorderAll_trans cs hm hx)

theorem mem_preorderAll_trans : ∀ (ns : List Node) {m x : Node},
    m ∈ preorderAll ns → x ∈ m.preorder → x ∈ preorderAll ns
  | [], m, x, hm, _ => by cases hm
  | c :: cs, m, x, hm, hx => by
    rw [preorderAll, List.mem_append] at hm ⊢
    rcases hm with hm | hm
    · exact .inl (mem_preorder_trans c hm hx)
    · exact .inr (mem_preorderAll_trans cs hm hx)

end

theorem mem_preorder_of_child {n c : Node} (h : c ∈ n.children) : c ∈ n.preorder := by
  rw [preorder_eq]
  exact List.mem_cons_of_mem _ (mem_preorderAll.mpr ⟨c, h, c.mem_preorder_self⟩)

theorem mem_children_of_child? {n c : Node} {r : Role} (h : n.child? r = some c) :
    c ∈ n.children :=
  List.mem_of_find?_eq_some h

theorem mem_children_of_named {n c : Node} (h : c ∈ n.namedChildren) : c ∈ n.children :=
  (List.mem_filter.mp h).1

theorem unwrap_of_kind {n : Node} (h : n.kind ≠ .parenthesizedExpression) : n.unwrap = n := by
  cases n
  simp_all [unwrap, kind]

mutual

theorem unwrap_unwrap : ∀ n : Node, n.unwrap.unwrap = n.unwrap
  | .mk k r s e l t cs => by
    by_cases hk : k = .parenthesizedExpression
    · have h := unwrap_inner (.mk k r s e l t cs) cs
      subst hk
      simp only [unwrap, beq_self_eq_true, if_true]
      rcases h with h | h
      · rw [h, unwrap]
        simp only [beq_self_eq_true, if_true, h]
      · exact h
    · have hn : (mk k r s e l t cs).kind ≠ .parenthesizedExpression := hk
      rw [unwrap_of_kind hn]
      exact unwrap_of_kind hn

theorem unwrap_inner (whole : Node) : ∀ cs : List Node,
    unwrap.inner whole cs = whole ∨ (unwrap.inner whole cs).unwrap = unwrap.inner whole cs
  | [] => .inl rfl
  | c :: cs => by
    rw [unwrap.inner]
    split
    · exact .inr (unwrap_unwrap c)
    · exact unwrap_inner whole cs

end

theorem literal?_of_not_string {n : Node} (h : n.unwrap.kind.isString = false) :
    n.literal? = none := by
  unfold literal?
  cases hk : n.unwrap.kind <;> simp_all [Kind.isString]

theorem unwrap_inner_of_find? {whole m : Node} : ∀ {cs : List Node},
    cs.find? isNamed = some m → unwrap.inner whole cs = m.unwrap
  | [], h => by cases h
  | c :: cs, h => by
    rw [List.find?_cons] at h
    rw [unwrap.inner]
    split at h
    case h_1 hc =>
      cases h
      rw [if_pos hc]
    case h_2 hc =>
      rw [if_neg (by simp [hc])]
      exact unwrap_inner_of_find? h

/-- Parentheses stand for the first named node in them. -/
theorem unwrap_of_parentheses {n m : Node} (hk : n.kind = .parenthesizedExpression)
    (hm : n.namedChildren.head? = some m) : n.unwrap = m.unwrap := by
  obtain ⟨k, r, s, e, l, t, cs⟩ := n
  obtain rfl : k = .parenthesizedExpression := hk
  rw [namedChildren, List.head?_filter] at hm
  exact unwrap_inner_of_find? hm

/-- The first named node in parentheses is the expression in them, or a comment before it. -/
theorem head_of_comments {n m : Node} {comments rest : List Node}
    (hchildren : n.namedChildren = comments ++ m :: rest)
    (hcomments : ∀ c ∈ comments, c.kind = .comment) :
    ∃ c ∈ n.children, n.namedChildren.head? = some c ∧ (c = m ∨ c.kind = .comment) := by
  have hmem : ∀ {c}, n.namedChildren.head? = some c → c ∈ n.children := fun hc =>
    mem_children_of_named (List.mem_of_mem_head? hc)
  cases comments with
  | nil =>
    have hm : n.namedChildren.head? = some m := by rw [hchildren]; rfl
    exact ⟨m, hmem hm, hm, .inl rfl⟩
  | cons c comments =>
    have hc : n.namedChildren.head? = some c := by rw [hchildren]; rfl
    exact ⟨c, hmem hc, hc, .inr (hcomments c List.mem_cons_self)⟩

mutual

theorem concatParts_of_not_concat : ∀ n : Node, n.unwrap.isConcat = false →
    n.concatParts = [n.unwrap]
  | .mk k r s e l t cs, h => by
    rw [unwrap] at h ⊢
    rw [concatParts]
    split
    case isTrue hk =>
      rw [if_pos hk] at h
      exact partsInside_of_not_concat _ cs h
    case isFalse hk =>
      rw [if_neg hk] at h
      rw [if_neg (by simp [h])]

theorem partsInside_of_not_concat (whole : Node) : ∀ cs : List Node,
    (unwrap.inner whole cs).isConcat = false → partsInside whole cs = [unwrap.inner whole cs]
  | [], _ => by rw [partsInside, unwrap.inner]
  | c :: cs, h => by
    rw [unwrap.inner] at h ⊢
    rw [partsInside]
    split
    case isTrue hc =>
      rw [if_pos hc] at h
      exact concatParts_of_not_concat c h
    case isFalse hc =>
      rw [if_neg hc] at h
      exact partsInside_of_not_concat whole cs h

end

theorem partsInside_of_find? {whole m : Node} : ∀ {cs : List Node},
    cs.find? isNamed = some m → partsInside whole cs = m.concatParts
  | [], h => by cases h
  | c :: cs, h => by
    rw [List.find?_cons] at h
    rw [partsInside]
    split at h
    case h_1 hc =>
      cases h
      rw [if_pos hc]
    case h_2 hc =>
      rw [if_neg (by simp [hc])]
      exact partsInside_of_find? h

theorem concatParts_of_parentheses {n m : Node} (hk : n.kind = .parenthesizedExpression)
    (hm : n.namedChildren.head? = some m) : n.concatParts = m.concatParts := by
  obtain ⟨k, r, s, e, l, t, cs⟩ := n
  obtain rfl : k = .parenthesizedExpression := hk
  rw [namedChildren, List.head?_filter] at hm
  rw [concatParts, if_pos (by rfl)]
  exact partsInside_of_find? hm

theorem sideParts_of_find? {side : Role} {m : Node} : ∀ {cs : List Node},
    (cs.find? fun c => c.role == some side) = some m → sideParts side cs = m.concatParts
  | [], h => by cases h
  | c :: cs, h => by
    rw [List.find?_cons] at h
    rw [sideParts]
    split at h
    case h_1 hc =>
      cases h
      rw [if_pos hc]
    case h_2 hc =>
      rw [if_neg (by simp [hc])]
      exact sideParts_of_find? h

theorem concatParts_of_concat {n left right : Node} (hn : n.isConcat = true)
    (hleft : n.child? .left = some left) (hright : n.child? .right = some right) :
    n.concatParts = left.concatParts ++ right.concatParts := by
  obtain ⟨k, r, s, e, l, t, cs⟩ := n
  have hk : k = .binaryExpression := by
    rw [isConcat, Bool.and_eq_true, beq_iff_eq] at hn
    exact hn.1
  subst hk
  have hl : sideParts .left cs = left.concatParts := sideParts_of_find? hleft
  have hr : sideParts .right cs = right.concatParts := sideParts_of_find? hright
  rw [concatParts, if_neg (by decide), if_pos hn, hl, hr]

mutual

theorem unwrap_mem_preorder : ∀ n : Node, n.unwrap ∈ n.preorder
  | .mk k r s e l t cs => by
    rw [unwrap]
    split
    case isTrue =>
      obtain h | h := inner_mem_preorder (.mk k r s e l t cs) cs
      · rw [h]
        exact mem_preorder_self _
      · exact List.mem_cons_of_mem _ h
    case isFalse => exact mem_preorder_self _

theorem inner_mem_preorder (whole : Node) : ∀ cs : List Node,
    unwrap.inner whole cs = whole ∨ unwrap.inner whole cs ∈ preorderAll cs
  | [] => .inl rfl
  | c :: cs => by
    rw [unwrap.inner, preorderAll, List.mem_append]
    split
    case isTrue => exact .inr (.inl (unwrap_mem_preorder c))
    case isFalse =>
      obtain h | h := inner_mem_preorder whole cs
      · exact .inl h
      · exact .inr (.inr h)

end

theorem isString_of_literal? {n : Node} {v : String} (h : n.literal? = some v) :
    n.unwrap.kind.isString = true := by
  by_contra hn
  rw [literal?_of_not_string (by simpa using hn)] at h
  cases h

end PluginAudit.Php.Node
