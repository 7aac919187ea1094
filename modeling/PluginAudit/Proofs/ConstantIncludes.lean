import PluginAudit.Php.Parser
import PluginAudit.Proofs.RecordedText
import PluginAudit.Proofs.Visits
import Mathlib

namespace PluginAudit.Php

namespace Kind

def isInclude : Kind → Bool
  | .includeExpression | .includeOnceExpression | .requireExpression | .requireOnceExpression =>
    true
  | _ => false

end Kind

namespace Node

/-- A path made of literals and magic constants, in any nesting. Each part is the text of a
literal, or nothing for a constant. -/
inductive ConstantPath : Node → List (Option String) → Prop where
  | literal {n : Node} {v : String} : n.kind.isString = true → n.literal? = some v →
      ConstantPath n [some v]
  | magic {n : Node} : n.kind = .name → Text.lower n.text ∈ Detect.magicConstants →
      ConstantPath n [none]
  | concat {n left right : Node} {ps qs : List (Option String)} : n.isConcat = true →
      n.child? .left = some left → n.child? .right = some right →
      ConstantPath left ps → ConstantPath right qs → ConstantPath n (ps ++ qs)
  | parentheses {n m : Node} {comments rest : List Node} {ps : List (Option String)} :
      n.kind = .parenthesizedExpression → n.namedChildren = comments ++ m :: rest →
      (∀ c ∈ comments, c.kind = .comment) → ConstantPath m ps → ConstantPath n ps

/-- The text that a path starts with: its literals up to the first magic constant. -/
def leadingText : List (Option String) → String
  | some v :: ps => v ++ leadingText ps
  | _ => ""

@[simp] theorem leadingText_singleton (v : String) : leadingText [some v] = v := by
  simp [leadingText]

theorem literal?_of_comment {n : Node} (h : n.kind = .comment) : n.literal? = none := by
  have hu : n.unwrap = n := unwrap_of_kind (by rw [h]; decide)
  apply literal?_of_not_string
  rw [hu, h]
  rfl

theorem literal?_of_isConcat {n : Node} (h : n.isConcat = true) : n.literal? = none := by
  apply literal?_of_not_string
  rw [unwrap_of_isConcat h]
  rw [isConcat, Bool.and_eq_true, beq_iff_eq] at h
  rw [h.1]
  rfl

theorem isConcat_of_kind {n : Node} (h : n.kind ≠ .binaryExpression) : n.isConcat = false := by
  simp [isConcat, h]

theorem unwrap_of_isString {n : Node} (h : n.kind.isString = true) : n.unwrap = n := by
  apply unwrap_of_kind
  intro hk
  rw [hk] at h
  cases h

namespace ConstantPath

variable {n : Node} {parts : List (Option String)}

theorem length_pos (h : n.ConstantPath parts) : 0 < parts.length := by
  induction h with
  | literal | magic => exact Nat.one_pos
  | concat _ _ _ _ _ ih _ =>
    rw [List.length_append]
    exact Nat.lt_add_right _ ih
  | parentheses _ _ _ _ ih => exact ih

/-- What stands in the parentheses of a path: a comment that opens them, a concatenation, a
literal or a constant. -/
theorem target (h : n.ConstantPath parts) :
    n.unwrap.kind = .comment ∨ (n.unwrap.isConcat = true ∧ 2 ≤ parts.length) ∨
      (∃ v, parts = [some v] ∧ n.unwrap.literal? = some v) ∨
      (parts = [none] ∧ n.unwrap.kind = .name) := by
  induction h with
  | literal hk hv =>
    rw [literal?_unwrap]
    exact .inr (.inr (.inl ⟨_, rfl, hv⟩))
  | magic hk _ =>
    rw [unwrap_of_kind (by rw [hk]; decide)]
    exact .inr (.inr (.inr ⟨rfl, hk⟩))
  | concat hn _ _ hleft hright _ _ =>
    rw [unwrap_of_isConcat hn, List.length_append]
    have hl := hleft.length_pos
    have hr := hright.length_pos
    exact .inr (.inl ⟨hn, by omega⟩)
  | parentheses hk hchildren hcomments _ ih =>
    obtain ⟨c, _, hhead, rfl | hcomment⟩ := head_of_comments hchildren hcomments
    · rwa [unwrap_of_parentheses hk hhead]
    · rw [unwrap_of_parentheses hk hhead, unwrap_of_kind (by rw [hcomment]; decide)]
      exact .inl hcomment

/-- The operands of a path, but for comments in front of them, are literals and constants. -/
theorem mem_concatParts (h : n.ConstantPath parts) {p : Node} (hp : p ∈ n.concatParts) :
    p.kind = .comment ∨ p.literal?.isSome = true ∨
      (p.kind = .name ∧ Text.lower p.text ∈ Detect.magicConstants) := by
  have single : ∀ {m : Node}, m.unwrap = m → m.kind ≠ .binaryExpression →
      p ∈ m.concatParts → p = m := by
    intro m hu hk hm
    rw [concatParts_of_not_concat m (by rw [hu]; exact isConcat_of_kind hk), hu] at hm
    exact List.mem_singleton.1 hm
  induction h with
  | @literal m v hk hv =>
    have hb : m.kind ≠ .binaryExpression := by
      intro hb
      rw [hb] at hk
      cases hk
    rw [single (unwrap_of_isString hk) hb hp, hv]
    exact .inr (.inl rfl)
  | magic hk hm =>
    rw [single (unwrap_of_kind (by rw [hk]; decide)) (by rw [hk]; decide) hp]
    exact .inr (.inr ⟨hk, hm⟩)
  | concat hn hl hr _ _ ihl ihr =>
    rw [concatParts_of_concat hn hl hr, List.mem_append] at hp
    exact hp.elim ihl ihr
  | parentheses hk hchildren hcomments _ ih =>
    obtain ⟨c, _, hhead, rfl | hcomment⟩ := head_of_comments hchildren hcomments
    · exact ih (concatParts_of_parentheses hk hhead ▸ hp)
    · rw [concatParts_of_parentheses hk hhead] at hp
      have hc : c.unwrap = c := unwrap_of_kind (by rw [hcomment]; decide)
      exact .inl (single hc (by rw [hcomment]; decide) hp ▸ hcomment)

theorem concatParts_unwrap (h : n.ConstantPath parts) : n.unwrap.concatParts = n.concatParts := by
  induction h with
  | literal hk _ => rw [unwrap_of_isString hk]
  | magic hk _ => rw [unwrap_of_kind (by rw [hk]; decide)]
  | concat hn _ _ _ _ _ _ => rw [unwrap_of_isConcat hn]
  | parentheses hk hchildren hcomments _ ih =>
    obtain ⟨c, _, hhead, rfl | hcomment⟩ := head_of_comments hchildren hcomments
    · rw [unwrap_of_parentheses hk hhead, concatParts_of_parentheses hk hhead, ih]
    · rw [unwrap_of_parentheses hk hhead, concatParts_of_parentheses hk hhead,
        unwrap_of_kind (by rw [hcomment]; decide)]

end ConstantPath

end Node

namespace Detect

open Context

variable {c : Context} {s : Site}

/-- The row of an include whose path starts with a forbidden wrapper. -/
def wrapperInclude (c : Context) (n : Node) (w : String) : Violation :=
  c.violation "always_forbidden_wrapper_stream_include" .critical n
    s!"Include through forbidden stream wrapper {w}" [("wrapper", .text w)]

theorem visit_of_isInclude (h : s.node.kind.isInclude = true) : visit c s = inclusion c s := by
  have hdetectors : detectors s.node.kind = [inclusion] := by
    revert h
    fun_cases Kind.isInclude s.node.kind
    case case5 => intro h; cases h
    all_goals intro; simp [*, detectors]
  rw [visit, hdetectors, List.flatMap_singleton]

theorem mem_inclusion_of_literal {target : Node} {v w : String}
    (htarget : s.node.namedChildren.head?.map Node.unwrap = some target)
    (hv : target.literal? = some v) (hw : c.policy.forbiddenWrapperFor? v = some w) (hne : w ≠ "") :
    wrapperInclude c s.node w ∈ inclusion c s := by
  simp [inclusion, htarget, hv, hw, hne, wrapperInclude]

/-- Without a literal as its whole path, an include is not compared with the wrappers. -/
theorem not_mem_inclusion {target : Node}
    (htarget : s.node.namedChildren.head?.map Node.unwrap = some target)
    (hv : target.literal? = none) (w : String) :
    wrapperInclude c s.node w ∉ inclusion c s := by
  intro h
  simp only [inclusion, htarget, hv] at h
  split at h
  case isTrue => cases h
  case isFalse => split at h <;> simp [wrapperInclude, violation] at h

theorem inclusion_of_isStaticPath {target : Node}
    (htarget : s.node.namedChildren.head?.map Node.unwrap = some target)
    (hv : target.literal? = none) (hstatic : isStaticPath target = true) : inclusion c s = [] := by
  simp [inclusion, htarget, hv, hstatic]

theorem isStaticPath_of_constantPath {n : Node} {parts : List (Option String)}
    (hpath : n.ConstantPath parts) (hconcat : n.unwrap.isConcat = true)
    (hparts : ∀ p ∈ n.concatParts, p.kind ≠ .comment) : isStaticPath n.unwrap = true := by
  rw [isStaticPath, hconcat, Bool.true_and, hpath.concatParts_unwrap, List.all_eq_true]
  intro p hp
  rcases hpath.mem_concatParts hp with hcomment | hliteral | ⟨hname, hmagic⟩
  · exact absurd hcomment (hparts p hp)
  · simp [hliteral]
  · simp [hname, hmagic]

theorem forbiddenWrapperFor?_empty {p : Policy} {w : String}
    (h : p.forbiddenWrapperFor? "" = some w) : w = "" := by
  have hstarts : Text.startsWith (Text.lower "") w = true := List.find?_some h
  simpa [Text.startsWith, Text.lower] using hstarts

/-- A constant path through a forbidden wrapper is reported exactly when it is one literal, with no
comment in front of it. A concatenation is passed over. -/
theorem wrapper_include_reported_iff {e : Node} {comments rest : List Node}
    {parts : List (Option String)} {w : String} (hs : s.node.kind.isInclude = true)
    (hchildren : s.node.namedChildren = comments ++ e :: rest)
    (hcomments : ∀ n ∈ comments, n.kind = .comment) (hpath : e.ConstantPath parts)
    (hw : c.policy.forbiddenWrapperFor? (Node.leadingText parts) = some w) (hne : w ≠ "") :
    (wrapperInclude c s.node w ∈ visit c s ↔
      comments = [] ∧ e.unwrap.kind ≠ .comment ∧ parts.length = 1) ∧
    (comments = [] → (∀ p ∈ e.concatParts, p.kind ≠ .comment) → 2 ≤ parts.length →
      visit c s = []) := by
  rw [visit_of_isInclude hs]
  cases comments with
  | cons first others =>
    have hfirst : first.kind = .comment := hcomments first List.mem_cons_self
    have htarget : s.node.namedChildren.head?.map Node.unwrap = some first := by
      rw [hchildren, List.cons_append, List.head?_cons, Option.map_some,
        Node.unwrap_of_kind (by rw [hfirst]; decide)]
    have hmiss := not_mem_inclusion (c := c) htarget (Node.literal?_of_comment hfirst) w
    exact ⟨iff_of_false hmiss (by simp), by simp⟩
  | nil =>
    have htarget : s.node.namedChildren.head?.map Node.unwrap = some e.unwrap := by
      rw [hchildren]
      rfl
    rcases hpath.target with hcomment | ⟨hconcat, hlength⟩ | ⟨v, rfl, hv⟩ | ⟨rfl, hname⟩
    · have hmiss := not_mem_inclusion (c := c) htarget (Node.literal?_of_comment hcomment) w
      refine ⟨iff_of_false hmiss fun h => h.2.1 hcomment, fun _ hparts => ?_⟩
      have hself : e.concatParts = [e.unwrap] :=
        Node.concatParts_of_not_concat e (Node.isConcat_of_kind (by rw [hcomment]; decide))
      exact absurd hcomment (hparts _ (by rw [hself]; exact List.mem_cons_self))
    · have hnone : e.unwrap.literal? = none := Node.literal?_of_isConcat hconcat
      refine ⟨iff_of_false (not_mem_inclusion htarget hnone w) (by omega), fun _ hparts _ => ?_⟩
      exact inclusion_of_isStaticPath htarget hnone
        (isStaticPath_of_constantPath hpath hconcat hparts)
    · rw [Node.leadingText_singleton] at hw
      have hkind : e.unwrap.kind ≠ .comment := by
        intro hcomment
        rw [Node.literal?_of_comment hcomment] at hv
        cases hv
      exact ⟨iff_of_true (mem_inclusion_of_literal htarget hv hw hne) ⟨rfl, hkind, rfl⟩, by simp⟩
    · exact absurd (forbiddenWrapperFor?_empty hw) hne

/-- The node of an `include` at the byte 6 of a source. -/
def includeOf (path : Node) : Node :=
  .mk .includeExpression none 6 path.stop 1 ("include " ++ path.text) [
    .mk .token none 6 13 1 "include" [], path]

def quotedPath (role : Option Role) (start stop : Nat) (text : String) : Node :=
  .mk .string role start stop 1 text []

def wrappedPath : Node :=
  .mk .parenthesizedExpression none 14 26 1 "('data://x')" [
    .mk .token none 14 15 1 "(" [], quotedPath none 15 25 "'data://x'",
    .mk .token none 25 26 1 ")" []]

def splitPath : Node :=
  .mk .binaryExpression none 14 29 1 "'data:' . '//x'" [
    quotedPath (some .left) 14 21 "'data:'", .mk .token (some .operator) 22 23 1 "." [],
    quotedPath (some .right) 24 29 "'//x'"]

theorem constantPath_wrappedPath : wrappedPath.ConstantPath [some "data://x"] := by
  have hliteral : (quotedPath none 15 25 "'data://x'").ConstantPath [some "data://x"] :=
    .literal rfl (by decide)
  have hinside : wrappedPath.namedChildren = [] ++ quotedPath none 15 25 "'data://x'" :: [] := rfl
  exact .parentheses rfl hinside (by simp) hliteral

theorem isConcat_splitPath : splitPath.isConcat = true := by
  have hlower : Text.lower "." = "." := by cbv
  simp [splitPath, Node.isConcat, Node.operatorText, Node.child?, quotedPath, Node.children,
    Node.role, Node.text, Node.kind, hlower]

theorem constantPath_splitPath : splitPath.ConstantPath [some "data:", some "//x"] := by
  have hleft : (quotedPath (some .left) 14 21 "'data:'").ConstantPath [some "data:"] :=
    .literal rfl (by decide)
  have hright : (quotedPath (some .right) 24 29 "'//x'").ConstantPath [some "//x"] :=
    .literal rfl (by decide)
  exact .concat isConcat_splitPath rfl rfl hleft hright

def forbiddingData : Policy :=
  { (default : Policy) with wrappers := ["data://"] }

theorem forbiddenWrapperFor?_data :
    forbiddingData.forbiddenWrapperFor? "data://x" = some "data://" := by
  cbv

theorem parenthesized_wrapper_include_reported :
    let s := Script.ofBytes "plugin.php" "<?php include ('data://x');".toUTF8
    let c := startContext forbiddingData (.empty forbiddingData 5) s none none
    let site := Site.root (includeOf wrappedPath)
    site.node.kind.isInclude = true ∧ site.node.namedChildren = [] ++ wrappedPath :: [] ∧
    (∀ n ∈ ([] : List Node), n.kind = .comment) ∧ wrappedPath.ConstantPath [some "data://x"] ∧
    wrapperInclude c site.node "data://" ∈ visit c site := by
  intro s c site
  have hw :
      c.policy.forbiddenWrapperFor? (Node.leadingText [some "data://x"]) = some "data://" := by
    rw [Node.leadingText_singleton]
    exact forbiddenWrapperFor?_data
  have hchildren : site.node.namedChildren = [] ++ wrappedPath :: [] := rfl
  have hreported := (wrapper_include_reported_iff (c := c) (s := site) rfl hchildren (by simp)
    constantPath_wrappedPath hw (by decide)).1.2 ⟨rfl, by decide, rfl⟩
  exact ⟨rfl, hchildren, by simp, constantPath_wrappedPath, hreported⟩

/-- Split over two literals, a path through a forbidden wrapper is included without a word. -/
theorem concatenated_wrapper_include_unreported :
    let site := Site.root (includeOf splitPath)
    site.node.kind.isInclude = true ∧ site.node.namedChildren = [splitPath] ∧
    splitPath.ConstantPath [some "data:", some "//x"] ∧
    forbiddingData.forbiddenWrapperFor? (Node.leadingText [some "data:", some "//x"]) =
      some "data://" ∧
    ∀ c : Context, c.policy = forbiddingData → visit c site = [] := by
  intro site
  have hleading : Node.leadingText [some "data:", some "//x"] = "data://x" := by decide
  have hparts : splitPath.concatParts =
      [quotedPath (some .left) 14 21 "'data:'", quotedPath (some .right) 24 29 "'//x'"] := by
    rw [Node.concatParts_of_concat isConcat_splitPath rfl rfl]
    rfl
  have hstatic : isStaticPath splitPath = true := by
    refine isStaticPath_of_constantPath constantPath_splitPath isConcat_splitPath ?_
    rw [hparts]
    decide
  refine ⟨rfl, rfl, constantPath_splitPath, hleading ▸ forbiddenWrapperFor?_data, fun c _ => ?_⟩
  rw [visit_of_isInclude rfl]
  exact inclusion_of_isStaticPath rfl (Node.literal?_of_isConcat isConcat_splitPath) hstatic

end Detect

end PluginAudit.Php
