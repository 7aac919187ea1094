import PluginAudit.Proofs.RecordedText
import Mathlib

namespace PluginAudit

namespace Text

theorem isSome_breakAt_iff {mark before cs : List Char} :
    (breakAt mark before cs).isSome ↔ mark <:+: cs := by
  induction cs generalizing before with
  | nil =>
    rw [breakAt, List.infix_nil, ← List.isEmpty_iff]
    split <;> simp_all
  | cons c rest ih =>
    rw [breakAt, List.infix_cons_iff, ← List.isPrefixOf_iff_prefix,
      ← List.isSome_isPrefixOf?_eq_isPrefixOf]
    cases mark.isPrefixOf? (c :: rest) with
    | some after => simp
    | none => simpa using ih

theorem contains_iff {s part : String} : contains s part = true ↔ part.toList <:+: s.toList :=
  isSome_breakAt_iff

theorem contains_self (s : String) : contains s s = true :=
  contains_iff.2 List.infix_rfl

theorem contains_append_left {s part : String} (h : contains s part = true) (t : String) :
    contains (s ++ t) part = true := by
  rw [contains_iff] at h ⊢
  rw [String.toList_append]
  exact h.trans (List.prefix_append _ _).isInfix

theorem contains_append_right {t part : String} (h : contains t part = true) (s : String) :
    contains (s ++ t) part = true := by
  rw [contains_iff] at h ⊢
  rw [String.toList_append]
  exact h.trans (List.suffix_append _ _).isInfix

end Text

namespace Php

/-- An expression that a text is built by. -/
inductive TextExpr where
  | literal (s : String)
  | var (x : String)
  | request
  | concat (a b : TextExpr)
  deriving DecidableEq

/-- A piece of a value: text of a literal, input of a request, or neither. -/
inductive Piece where
  | text (s : String)
  | request
  | unknown
  deriving DecidableEq

namespace Piece

/-- The text that pieces make up, if all of them come from literals. -/
def literalValue? : List Piece → Option String
  | [] => some ""
  | text s :: rest => (literalValue? rest).map (s ++ ·)
  | _ :: _ => none

theorem literalValue?_append (ps qs : List Piece) :
    literalValue? (ps ++ qs) =
      (literalValue? ps).bind fun s => (literalValue? qs).map (s ++ ·) := by
  induction ps with
  | nil => simp [literalValue?]
  | cons p ps ih =>
    cases p with
    | text s =>
      rw [List.cons_append, literalValue?, literalValue?, ih]
      cases literalValue? ps <;> cases literalValue? qs <;> simp [String.append_assoc]
    | request => rfl
    | unknown => rfl

end Piece

/-- What each variable holds, piece by piece. -/
abbrev Memory := String → List Piece

namespace Memory

/-- Before the first statement nothing is known of any variable. -/
def start : Memory := fun _ => [.unknown]

def set (m : Memory) (x : String) (ps : List Piece) : Memory :=
  fun y => if y = x then ps else m y

end Memory

namespace TextExpr

def eval (m : Memory) : TextExpr → List Piece
  | literal s => [.text s]
  | var x => m x
  | request => [.request]
  | concat a b => a.eval m ++ b.eval m

def vars : TextExpr → List String
  | literal _ => []
  | var x => [x]
  | request => []
  | concat a b => a.vars ++ b.vars

theorem eval_set_of_not_mem {e : TextExpr} {x : String} (h : x ∉ e.vars) {m : Memory}
    (ps : List Piece) : e.eval (m.set x ps) = e.eval m := by
  induction e with
  | literal s => rfl
  | var y =>
    have hy : y ≠ x := fun hxy => h (by simp [vars, hxy])
    simp [eval, Memory.set, hy]
  | request => rfl
  | concat a b iha ihb =>
    rw [vars, List.mem_append, not_or] at h
    rw [eval, eval, iha h.1, ihb h.2]

end TextExpr

/-- A statement of straight-line string building: `$x = e` or `$x .= e`. -/
inductive Build where
  | set (x : String) (e : TextExpr)
  | extend (x : String) (e : TextExpr)

namespace Build

/-- The expression is read before the variable is written, and `$x .= e` is `$x = $x . e`. -/
def exec (m : Memory) : Build → Memory
  | set x e => m.set x (e.eval m)
  | extend x e => m.set x (m x ++ e.eval m)

/-- What a traversal keeps of a statement: the variable is forgotten before the expression is read,
and whenever anything but a literal is appended to it. -/
def keep (m : Memory) : Build → Memory
  | set x e => m.set x (e.eval (m.set x [.unknown]))
  | extend x (.literal s) => m.set x (m x ++ [.text s])
  | extend x _ => m.set x [.unknown]

/-- No variable is read by its own assignment, and only literals are appended. -/
def Simple : Build → Prop
  | set x e => x ∉ e.vars
  | extend _ e => ∃ s, e = .literal s

theorem keep_of_simple {b : Build} (h : b.Simple) (m : Memory) : b.keep m = b.exec m := by
  cases b with
  | set x e => rw [keep, exec, TextExpr.eval_set_of_not_mem h]
  | extend x e =>
    obtain ⟨s, rfl⟩ := h
    rfl

theorem foldl_keep_of_simple {bs : List Build} (h : ∀ b ∈ bs, b.Simple) (m : Memory) :
    bs.foldl keep m = bs.foldl exec m := by
  induction bs generalizing m with
  | nil => rfl
  | cons b bs ih =>
    rw [List.foldl_cons, List.foldl_cons, keep_of_simple (h b List.mem_cons_self)]
    exact ih (fun c hc => h c (List.mem_cons_of_mem _ hc)) _

end Build

namespace Node

/-- The expression that a node writes down. -/
inductive Spells : Node → TextExpr → Prop where
  | literal {n : Node} {s : String} : n.literal? = some s → Spells n (.literal s)
  | var {n : Node} {x : String} : n.IsVariable x → x ∉ superglobals → Spells n (.var x)
  | request {n : Node} : n.ReadsRequest → Spells n .request
  | concat {n left right : Node} {a b : TextExpr} : n.isConcat = true →
      n.child? .left = some left → n.child? .right = some right →
      Spells left a → Spells right b → Spells n (.concat a b)
  | parentheses {n m : Node} {e : TextExpr} : n.kind = .parenthesizedExpression →
      n.namedChildren.head? = some m → Spells m e → Spells n e

theorem Spells.literal?_eq {n : Node} {s : String} (h : n.Spells (.literal s)) :
    n.literal? = some s := by
  generalize he : TextExpr.literal s = e at h
  induction h with
  | literal hs => cases he; exact hs
  | var => cases he
  | request => cases he
  | concat => cases he
  | parentheses hk hm _ ih =>
    rw [← literal?_unwrap, unwrap_of_parentheses hk hm, literal?_unwrap]
    exact ih he

end Node

/-- What is told of a variable fits what it holds: a text from literals alone is told as it is, and
input of a request is marked. -/
structure Shows (told : Option String) (ps : List Piece) : Prop where
  literal : ∀ s, Piece.literalValue? ps = some s → told = some s
  request : Piece.request ∈ ps → ∃ t, told = some t ∧ Text.contains t superglobalMark = true

namespace Shows

theorem unknown (told : Option String) : Shows told [.unknown] :=
  ⟨nofun, by simp⟩

theorem text (s : String) : Shows (some s) [.text s] where
  literal t h := by simpa [Piece.literalValue?] using h
  request h := by simp at h

theorem mark : Shows (some superglobalMark) [.request] :=
  ⟨nofun, fun _ => ⟨_, rfl, Text.contains_self _⟩⟩

theorem getD {told : Option String} {ps : List Piece} (h : Shows told ps) (t : String) :
    Shows (some (told.getD t)) ps where
  literal s hs := by rw [h.literal s hs, Option.getD_some]
  request hr := by
    obtain ⟨u, rfl, hu⟩ := h.request hr
    exact ⟨u, rfl, hu⟩

theorem append {s t : String} {ps qs : List Piece} (hs : Shows (some s) ps)
    (ht : Shows (some t) qs) : Shows (some (s ++ t)) (ps ++ qs) where
  literal u hu := by
    rw [Piece.literalValue?_append] at hu
    obtain ⟨a, ha, hrest⟩ := Option.bind_eq_some_iff.1 hu
    obtain ⟨b, hb, rfl⟩ := Option.map_eq_some_iff.1 hrest
    obtain rfl : s = a := Option.some.inj (hs.literal a ha)
    obtain rfl : t = b := Option.some.inj (ht.literal b hb)
    rfl
  request hr := by
    obtain hr | hr := List.mem_append.1 hr
    · obtain ⟨_, ⟨⟩, hu⟩ := hs.request hr
      exact ⟨_, rfl, Text.contains_append_left hu t⟩
    · obtain ⟨_, ⟨⟩, hu⟩ := ht.request hr
      exact ⟨_, rfl, Text.contains_append_right hu s⟩

theorem appendText {told : Option String} {ps : List Piece} (h : Shows told ps) (t : String) :
    Shows (told.bind fun s => some (s ++ t)) (ps ++ [.text t]) := by
  cases told with
  | some s => exact h.append (.text t)
  | none =>
    constructor
    · intro u hu
      rw [Piece.literalValue?_append] at hu
      obtain ⟨a, ha, -⟩ := Option.bind_eq_some_iff.1 hu
      cases h.literal a ha
    · intro hr
      obtain ⟨u, hu, -⟩ := h.request (by simpa using hr)
      cases hu

end Shows

namespace Facts

variable {f : Facts} {m : Memory} {n : Node} {e : TextExpr}

/-- The facts fit what every variable holds. -/
def Fits (f : Facts) (m : Memory) : Prop :=
  ∀ x, Shows (f.values.find? x) (m x)

/-- The parts of a concatenation, described and joined, show what it evaluates to. -/
theorem shows_parts (h : n.Spells e) (hf : f.Fits m) :
    Shows (some (String.join (n.concatParts.map f.describePart))) (e.eval m) := by
  induction h with
  | @literal n s hs =>
    have hconcat : n.unwrap.isConcat = false := by
      have := Node.isString_of_literal? hs
      cases hk : n.unwrap.kind <;> simp_all [Node.isConcat, Kind.isString]
    rw [join_parts hconcat, describePart_of_literal (by rw [Node.literal?_unwrap, hs])]
    exact .text s
  | @var n x hx hmem =>
    have hconcat : n.unwrap.isConcat = false := by simp [hx.unwrap, Node.isConcat, hx.1]
    rw [join_parts hconcat, hx.unwrap, describePart_of_variable hx hmem]
    exact (hf x).getD _
  | @request n hr =>
    rw [join_parts (by rw [hr.unwrap, hr.isConcat]), hr.unwrap, describePart_of_request hr]
    exact .mark
  | concat hn hl hr _ _ iha ihb =>
    rw [Node.concatParts_of_concat hn hl hr, List.map_append, String.join_append]
    exact iha.append ihb
  | parentheses hk hm _ ih =>
    rw [Node.concatParts_of_parentheses hk hm]
    exact ih

theorem shows_told (h : n.Spells e) (hf : f.Fits m) :
    Shows (f.told? n.unwrap) (e.eval m) := by
  induction h with
  | @literal n s hs =>
    rw [told?_of_literal hs]
    exact .text s
  | @var n x hx hmem =>
    rw [hx.unwrap, told?_of_var hx hmem]
    exact hf x
  | @request n hr =>
    have hdescribe : f.describe n = some superglobalMark := by
      simp [describe, hr.unwrap, hr.literal?, hr.isSome_superglobal?]
    rw [hr.unwrap, told?_of_not_var fun x => hr.mem_of_plainVariable?, hdescribe]
    exact .mark
  | concat hn hl hr ha hb =>
    rw [Node.unwrap_of_isConcat hn, told?_of_isConcat hn]
    exact shows_parts (.concat hn hl hr ha hb) hf
  | parentheses hk hm _ ih =>
    rw [Node.unwrap_of_parentheses hk hm]
    exact ih

end Facts

/-- The statement that a site performs. -/
def Site.Performs (s : Site) : Build → Prop
  | .set x e => s.node.kind = .assignmentExpression ∧ ∃ left right,
      s.node.child? .left = some left ∧ left.IsVariable x ∧
      s.node.child? .right = some right ∧ right.Spells e
  | .extend x e => s.node.kind = .augmentedAssignmentExpression ∧ ∃ left right op,
      s.node.child? .left = some left ∧ left.IsVariable x ∧
      s.node.child? .operator = some op ∧ op.text = ".=" ∧
      s.node.child? .right = some right ∧ right.Spells e

namespace Facts

theorem fits_start : Facts.empty.Fits .start :=
  fun _ => .unknown _

variable {f : Facts} {m : Memory} {names : Names}

theorem Fits.set {g : Facts} {x : String} {ps : List Piece} (h : f.Fits m)
    (hx : Shows (g.values.find? x) ps) (hg : ∀ y, y ≠ x → g.values.find? y = f.values.find? y) :
    g.Fits (m.set x ps) := by
  intro y
  by_cases hy : y = x
  · subst hy
    simpa [Memory.set] using hx
  · rw [hg y hy]
    simpa [Memory.set, hy] using h y

theorem Fits.forget (h : f.Fits m) (x : String) : (f.forget x).Fits (m.set x [.unknown]) :=
  h.set (.unknown _) fun _ hy => f.find?_forget_of_ne hy

/-- One statement leaves the facts in step with what is kept of it. -/
theorem Fits.observe {s : Site} {b : Build} (h : f.Fits m) (hb : s.Performs b) :
    (f.observe names s).Fits (b.keep m) := by
  cases b with
  | set x e =>
    obtain ⟨hkind, left, right, hleft, hx, hright, he⟩ := hb
    have hobserve : f.observe names s = f.assign names s := by rw [Facts.observe, hkind]
    rw [hobserve]
    refine h.set ?_ fun y hy => ?_
    · rw [find?_assign hleft hx hright, if_pos rfl]
      exact shows_told he (h.forget x)
    · rw [find?_assign hleft hx hright, if_neg hy, f.find?_forget_of_ne hy]
  | extend x e =>
    obtain ⟨hkind, left, right, op, hleft, hx, hop, htext, hright, he⟩ := hb
    have hobserve : f.observe names s = f.append s.node := by rw [Facts.observe, hkind]
    have hothers : ∀ y, y ≠ x → (f.append s.node).values.find? y = f.values.find? y := by
      intro y hy
      rw [find?_append hleft hx hright hop htext, if_neg hy]
    rw [hobserve]
    cases e with
    | literal extra =>
      refine h.set ?_ hothers
      rw [find?_append hleft hx hright hop htext, if_pos rfl, he.literal?_eq]
      exact (h x).appendText extra
    | var | request | concat => exact h.set (.unknown _) hothers

theorem Fits.foldl_observe {sites : List Site} {builds : List Build} (h : f.Fits m)
    (hbuilds : List.Forall₂ Site.Performs sites builds) :
    (sites.foldl (fun f s => f.observe names s) f).Fits (builds.foldl Build.keep m) := by
  induction hbuilds generalizing f m with
  | nil => exact h
  | cons hb _ ih => exact ih (h.observe hb)

theorem isSuperglobal_of_shows {x : String} {ps : List Piece} (h : Shows (f.values.find? x) ps)
    (hr : Piece.request ∈ ps) : f.isSuperglobal x = true := by
  obtain ⟨t, ht, hmark⟩ := h.request hr
  rw [isSuperglobal, ht]
  exact hmark

end Facts

/-- After straight-line string building, what is kept of every variable is known exactly: text from
literals alone as it is, and input of a request by its mark. All that the variables hold is kept if
no assignment reads its own variable and only literals are appended. -/
theorem tracks_string_building {sites : List Site} {builds : List Build}
    (hbuilds : List.Forall₂ Site.Performs sites builds) (names : Names) (x : String) :
    let facts := sites.foldl (fun (f : Facts) s => f.observe names s) Facts.empty
    let held := builds.foldl Build.exec .start x
    let kept := builds.foldl Build.keep .start x
    ((∀ b ∈ builds, b.Simple) → kept = held) ∧
      (∀ s, Piece.literalValue? kept = some s → facts.values.find? x = some s) ∧
      (Piece.request ∈ kept → facts.isSuperglobal x = true) := by
  intro facts held kept
  have hshows : Shows (facts.values.find? x) kept := Facts.fits_start.foldl_observe hbuilds x
  refine ⟨fun hsimple => ?_, hshows.literal, Facts.isSuperglobal_of_shows hshows⟩
  exact congrFun (Build.foldl_keep_of_simple hsimple .start) x

section Programs

/-- A token of a program of one line. -/
def punctuation (role : Option Role) (t : String) : Node :=
  .mk .token role 0 0 1 t []

def dotted (left right : Node) : Node :=
  .mk .binaryExpression none 0 0 1 (left.text ++ " . " ++ right.text)
    [left, punctuation (some .operator) ".", right]

/-- The node that writes an expression down, with all concatenations in parentheses. -/
def TextExpr.node (role : Option Role) : TextExpr → Node
  | literal s => .mk .string role 0 0 1 ("'" ++ s ++ "'") []
  | var x => .mk .variableName role 0 0 1 ("$" ++ x) []
  | request => .mk .variableName role 0 0 1 "$_GET" []
  | concat a b =>
    let inner := dotted (a.node (some .left)) (b.node (some .right))
    .mk .parenthesizedExpression role 0 0 1 ("(" ++ inner.text ++ ")")
      [punctuation none "(", inner, punctuation none ")"]

/-- Literals that need no escapes, and names of plain variables. -/
def TextExpr.Writable : TextExpr → Prop
  | literal s => Literal.unquote ("'" ++ s ++ "'") = some s
  | var x => x ≠ "" ∧ '$' ∉ x.toList ∧ x ∉ Node.superglobals
  | request => True
  | concat a b => a.Writable ∧ b.Writable

instance TextExpr.decidableWritable : (e : TextExpr) → Decidable e.Writable
  | literal s => inferInstanceAs (Decidable (Literal.unquote ("'" ++ s ++ "'") = some s))
  | var x => inferInstanceAs (Decidable (x ≠ "" ∧ '$' ∉ x.toList ∧ x ∉ Node.superglobals))
  | request => inferInstanceAs (Decidable True)
  | concat a b =>
    have := decidableWritable a
    have := decidableWritable b
    inferInstanceAs (Decidable (a.Writable ∧ b.Writable))

@[simp] theorem role_punctuation (role : Option Role) (t : String) :
    (punctuation role t).role = role := rfl

@[simp] theorem TextExpr.role_node (e : TextExpr) (role : Option Role) : (e.node role).role = role := by
  cases e <;> rfl

section Dotted

variable {left right : Node} (hleft : left.role = some .left) (hright : right.role = some .right)

include hleft

theorem isConcat_dotted : (dotted left right).isConcat = true := by
  have hdot : Text.lower (punctuation (some .operator) ".").text = "." := by cbv
  simp [dotted, Node.isConcat, Node.operatorText, Node.child?, Node.children, Node.kind, hleft,
    hdot]

theorem left_dotted : (dotted left right).child? .left = some left := by
  simp [dotted, Node.child?, Node.children, hleft]

include hright

theorem right_dotted : (dotted left right).child? .right = some right := by
  simp [dotted, Node.child?, Node.children, hleft, hright]

theorem concatParts_dotted :
    (dotted left right).concatParts = left.concatParts ++ right.concatParts :=
  Node.concatParts_of_concat (isConcat_dotted hleft) (left_dotted hleft)
    (right_dotted hleft hright)

end Dotted

theorem TextExpr.spells_node {e : TextExpr} (h : e.Writable) (role : Option Role) :
    (e.node role).Spells e := by
  induction e generalizing role with
  | literal s => exact .literal h
  | var x => exact .var ⟨rfl, rfl, h.1, h.2.1⟩ h.2.2
  | request =>
    have hget : (TextExpr.request.node role).IsVariable "_GET" :=
      ⟨rfl, rfl, by decide, by decide⟩
    exact .request (.var hget (by decide))
  | concat a b iha ihb =>
    have hleft := a.role_node (some .left)
    have hright := b.role_node (some .right)
    exact .parentheses rfl rfl (.concat (isConcat_dotted hleft) (left_dotted hleft)
      (right_dotted hleft hright) (iha h.1 _) (ihb h.2 _))

/-- The site of a statement that stands alone. -/
def Build.site : Build → Site
  | set x e => ⟨.mk .assignmentExpression none 0 0 1 ("$" ++ x ++ " = " ++ (e.node none).text)
      [(TextExpr.var x).node (some .left), punctuation none "=", e.node (some .right)],
      none, some .expressionStatement⟩
  | extend x e => ⟨.mk .augmentedAssignmentExpression none 0 0 1
      ("$" ++ x ++ " .= " ++ (e.node none).text)
      [(TextExpr.var x).node (some .left), punctuation (some .operator) ".=", e.node (some .right)],
      none, some .expressionStatement⟩

def Build.Writable : Build → Prop
  | set x e => (TextExpr.var x).Writable ∧ e.Writable
  | extend x e => (TextExpr.var x).Writable ∧ e.Writable

instance Build.decidableWritable : (b : Build) → Decidable b.Writable
  | set x e => inferInstanceAs (Decidable ((TextExpr.var x).Writable ∧ e.Writable))
  | extend x e => inferInstanceAs (Decidable ((TextExpr.var x).Writable ∧ e.Writable))

theorem Build.performs_site {b : Build} (h : b.Writable) : b.site.Performs b := by
  cases b with
  | set x e =>
    refine ⟨rfl, (TextExpr.var x).node (some .left), e.node (some .right), rfl,
      ⟨rfl, rfl, h.1.1, h.1.2.1⟩, ?_, e.spells_node h.2 _⟩
    simp [site, Node.child?, Node.children]
  | extend x e =>
    refine ⟨rfl, (TextExpr.var x).node (some .left), e.node (some .right),
      punctuation (some .operator) ".=", rfl, ⟨rfl, rfl, h.1.1, h.1.2.1⟩, rfl, rfl, ?_,
      e.spells_node h.2 _⟩
    simp [site, Node.child?, Node.children]

theorem Build.performs_sites {bs : List Build} (h : ∀ b ∈ bs, b.Writable) :
    List.Forall₂ Site.Performs (bs.map site) bs := by
  rw [List.forall₂_map_left_iff, List.forall₂_same]
  exact fun b hb => performs_site (h b hb)

/-- What is known after a program without names of its own. -/
def Build.facts (bs : List Build) : Facts :=
  (bs.map site).foldl (fun f s => f.observe default s) .empty

/-- The program `$a = 'sys'; $b = $a . ('te' . 'm'); $c = $b . $_GET; $b .= 's';`. -/
def assembling : List Build :=
  [.set "a" (.literal "sys"),
    .set "b" (.concat (.var "a") (.concat (.literal "te") (.literal "m"))),
    .set "c" (.concat (.var "b") .request),
    .extend "b" (.literal "s")]

theorem assembling_tracked :
    List.Forall₂ Site.Performs (assembling.map Build.site) assembling ∧
    (∀ b ∈ assembling, b.Simple) ∧
    (Build.facts assembling).values.find? "b" = some "systems" ∧
    (Build.facts assembling).isSuperglobal "c" = true := by
  have hperforms : List.Forall₂ Site.Performs (assembling.map Build.site) assembling :=
    Build.performs_sites (by decide)
  have hsimple : ∀ b ∈ assembling, b.Simple := by
    simp [assembling, Build.Simple, TextExpr.vars]
  obtain ⟨hb, hliteral, -⟩ := tracks_string_building hperforms default "b"
  obtain ⟨hc, -, hrequest⟩ := tracks_string_building hperforms default "c"
  rw [hb hsimple] at hliteral
  rw [hc hsimple] at hrequest
  exact ⟨hperforms, hsimple, hliteral "systems" (by decide), hrequest (by decide)⟩

/-- The program `$a = 'sys'; $a = $a . 'tem';`. -/
def growing : List Build :=
  [.set "a" (.literal "sys"), .set "a" (.concat (.var "a") (.literal "tem"))]

/-- The program `$a = 'sys'; $b = 'tem'; $a .= $b;`. -/
def joining : List Build :=
  [.set "a" (.literal "sys"), .set "b" (.literal "tem"), .extend "a" (.var "b")]

/-- The program `$a = 'x'; $a .= $_GET;`. -/
def feeding : List Build :=
  [.set "a" (.literal "x"), .extend "a" .request]

/-- A text is lost when its variable is read by its own assignment or anything but a literal is
appended, and so is the input of a request. -/
theorem string_building_lost :
    (List.Forall₂ Site.Performs (growing.map Build.site) growing ∧
      Piece.literalValue? (growing.foldl Build.exec .start "a") = some "system" ∧
      (Build.facts growing).values.find? "a" = some (dynamicMark ++ "tem")) ∧
    (List.Forall₂ Site.Performs (joining.map Build.site) joining ∧
      Piece.literalValue? (joining.foldl Build.exec .start "a") = some "system" ∧
      (Build.facts joining).values.find? "a" = none) ∧
    (List.Forall₂ Site.Performs (feeding.map Build.site) feeding ∧
      Piece.request ∈ feeding.foldl Build.exec .start "a" ∧
      (Build.facts feeding).isSuperglobal "a" = false) := by
  -- nothing is known of the variable when its own assignment reads it
  have hgrowing : (Build.facts growing).values.find? "a" = some (dynamicMark ++ "tem") := by
    let left := (TextExpr.var "a").node (some .left)
    let right := (TextExpr.literal "tem").node (some .right)
    let f := Build.facts [.set "a" (.literal "sys")]
    let s := (Build.set "a" (.concat (.var "a") (.literal "tem"))).site
    have hvar : left.IsVariable "a" := ⟨rfl, rfl, by decide, by decide⟩
    have hassign : (f.assign default s).values.find? "a" =
        (f.forget "a").told? (dotted left right) := by
      have hleft : s.node.child? .left = some left := rfl
      rw [Facts.find?_assign hleft hvar rfl, if_pos rfl]
      rfl
    have hfacts : Build.facts growing = f.assign default s := rfl
    rw [hfacts, hassign, Facts.told?_of_isConcat (isConcat_dotted rfl), concatParts_dotted rfl rfl,
      Node.concatParts_of_not_concat left rfl, Node.concatParts_of_not_concat right rfl]
    decide
  exact ⟨⟨Build.performs_sites (by decide), by decide, hgrowing⟩,
    ⟨Build.performs_sites (by decide), by decide, by decide⟩,
    ⟨Build.performs_sites (by decide), by decide, by decide⟩⟩

end Programs

end Php

end PluginAudit
