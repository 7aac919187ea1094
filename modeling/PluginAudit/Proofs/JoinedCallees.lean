import PluginAudit.Proofs.ConstantCallees
import PluginAudit.Proofs.StringBuilding

namespace PluginAudit

/-- A violation without the place where it was found. -/
def Violation.told (v : Violation) : String × Severity × String × Table Value :=
  (v.type, v.severity, v.issue, v.data)

namespace Php

/-- The text that an expression amounts to, from left to right, with marks for what is not known. -/
def TextExpr.joined (f : Facts) : TextExpr → String
  | literal s => s
  | var x => (f.values.find? x).getD dynamicMark
  | request => superglobalMark
  | concat a b => a.joined f ++ b.joined f

namespace Node

variable {n : Node} {a b e : TextExpr}

theorem Spells.unwrap (h : n.Spells e) : n.unwrap.Spells e := by
  induction h with
  | literal hs => exact .literal (by rw [literal?_unwrap, hs])
  | var hx hmem =>
    rw [hx.unwrap]
    exact .var hx hmem
  | request hr =>
    rw [hr.unwrap]
    exact .request hr
  | concat hn hleft hright ha hb =>
    rw [unwrap_of_isConcat hn]
    exact .concat hn hleft hright ha hb
  | parentheses hk hm _ ih =>
    rw [unwrap_of_parentheses hk hm]
    exact ih

theorem Spells.isConcat (h : n.Spells (.concat a b)) : n.unwrap.isConcat = true := by
  generalize he : TextExpr.concat a b = e at h
  induction h with
  | literal => cases he
  | var => cases he
  | request => cases he
  | concat hn =>
    rw [unwrap_of_isConcat hn]
    exact hn
  | parentheses hk hm _ ih =>
    rw [unwrap_of_parentheses hk hm]
    exact ih he

end Node

namespace Facts

variable {f : Facts} {n : Node} {a b e : TextExpr}

/-- However the operands are nested, they are described in the order in which they are written. -/
theorem join_parts_of_spells (h : n.Spells e) :
    String.join (n.concatParts.map f.describePart) = e.joined f := by
  induction h with
  | @literal n s hs =>
    have hconcat : n.unwrap.isConcat = false := by
      have hstring := Node.isString_of_literal? hs
      cases hk : n.unwrap.kind <;> simp_all [Node.isConcat, Kind.isString]
    rw [join_parts hconcat, describePart_of_literal (by rw [Node.literal?_unwrap, hs])]
    rfl
  | @var n x hx hmem =>
    have hconcat : n.unwrap.isConcat = false := by simp [hx.unwrap, Node.isConcat, hx.1]
    rw [join_parts hconcat, hx.unwrap, describePart_of_variable hx hmem]
    rfl
  | @request n hr =>
    rw [join_parts (by rw [hr.unwrap, hr.isConcat]), hr.unwrap, describePart_of_request hr]
    rfl
  | concat hn hleft hright _ _ iha ihb =>
    rw [Node.concatParts_of_concat hn hleft hright, List.map_append, String.join_append, iha, ihb]
    rfl
  | parentheses hk hm _ ih =>
    rw [Node.concatParts_of_parentheses hk hm]
    exact ih

theorem describe_of_spells (h : n.Spells (.concat a b)) :
    f.describe n.unwrap = some ((TextExpr.concat a b).joined f) := by
  have hconcat := h.isConcat
  have hvar : n.unwrap.plainVariable? = none := by
    apply Node.plainVariable?_of_kind
    rw [Node.unwrap_unwrap]
    intro hk
    rw [Node.isConcat, hk] at hconcat
    cases hconcat
  have htold : f.told? n.unwrap = f.describe n.unwrap := told?_of_not_var (by simp [hvar])
  rw [← htold, told?_of_isConcat hconcat, join_parts_of_spells h.unwrap]

end Facts

namespace Detect

open Context

/-- The type that a verdict on a joined name is reported as. -/
def joinedType : Option Context.Verdict → String
  | some .forbidden => "backdoor_concat_function_call_always_forbidden"
  | some .unsupported => "backdoor_concat_function_call_unsupported"
  | some .chain => "backdoor_concat_function_call_chain_forbidden"
  | none => "backdoor_concat_function_call"

/-- A name is judged if it is not empty and, whatever its case, no mark stands in it. -/
def IsJudged (name : String) : Prop :=
  name ≠ "" ∧ Text.contains (Text.lower name) dynamicMark = false ∧
    Text.contains (Text.lower name) superglobalMark = false

theorem isJudged_iff {name expression : String}
    (hexpression : Text.lower (if name == "" then dynamicMark else name) = expression) :
    IsJudged name ↔
      ¬(Text.contains expression dynamicMark || Text.contains expression superglobalMark) = true := by
  rw [Bool.not_eq_true, Bool.or_eq_false_iff, IsJudged]
  by_cases hname : name = ""
  · have hmark : Text.contains expression dynamicMark = true := by
      rw [← hexpression, hname]
      cbv
    rw [hmark]
    simp [hname]
  · rw [if_neg (by simpa using hname)] at hexpression
    rw [hexpression]
    simp [hname]

section Joined

variable {c c' : Context} {s s' : Site} {n n' : Node} {a b a' b' : TextExpr}

theorem nameVerdict?_congr (hpolicy : c'.policy = c.policy) (hgraph : c'.graph = c.graph)
    (name : String) : c'.nameVerdict? name = c.nameVerdict? name := by
  rw [nameVerdict?, nameVerdict?, verdict?, verdict?, chainsToForbidden, chainsToForbidden, hpolicy,
    hgraph]

theorem told_concatCall (hn : s.node.callee? = some n) (he : n.Spells (.concat a b))
    (hn' : s'.node.callee? = some n') (he' : n'.Spells (.concat a' b'))
    (hpolicy : c'.policy = c.policy) (hgraph : c'.graph = c.graph)
    (hjoined : (TextExpr.concat a b).joined c.facts = (TextExpr.concat a' b').joined c'.facts) :
    (concatCall c s).map Violation.told = (concatCall c' s').map Violation.told := by
  simp only [concatCall, hn, hn', Option.map_some, he.isConcat, he'.isConcat, Bool.not_true,
    Bool.false_eq_true, if_false, Facts.describe_of_spells he, Facts.describe_of_spells he',
    Option.getD_some, hjoined, nameVerdict?_congr hpolicy hgraph]
  generalize Text.lower _ = expression
  by_cases hmark :
      (Text.contains expression dynamicMark || Text.contains expression superglobalMark) = true
  · rw [if_pos hmark, if_pos hmark]
    rfl
  · rw [if_neg hmark, if_neg hmark]
    cases c.nameVerdict? expression with
    | none => rfl
    | some verdict => cases verdict <;> rfl

theorem type_concatCall (hn : s.node.callee? = some n) (he : n.Spells (.concat a b)) {name : String}
    (hname : (TextExpr.concat a b).joined c.facts = name) : ∃ x, concatCall c s = [x] ∧
      (IsJudged name → x.type = joinedType (c.nameVerdict? (Text.lower name))) ∧
      (¬ IsJudged name → x.type = "backdoor_concat_function_call_unknown") := by
  have hjudged := @isJudged_iff name _ rfl
  simp only [concatCall, hn, Option.map_some, he.isConcat, Bool.not_true, Bool.false_eq_true,
    if_false, Facts.describe_of_spells he, Option.getD_some, hname]
  by_cases h : IsJudged name
  · rw [if_neg (hjudged.1 h), if_neg (by simpa using h.1)]
    cases c.nameVerdict? (Text.lower name) with
    | none => exact ⟨_, rfl, fun _ => rfl, fun hnot => absurd h hnot⟩
    | some verdict => cases verdict <;> exact ⟨_, rfl, fun _ => rfl, fun hnot => absurd h hnot⟩
  · rw [if_pos (not_not.1 (mt hjudged.2 h))]
    exact ⟨_, rfl, fun hjudge => absurd hjudge h, fun _ => rfl⟩

/-- Two calls of names that are joined from pieces are reported alike if the joined texts are the same,
whatever the pieces and their grouping are. The verdict on the name in lower case decides the type,
unless the name is empty or holds a mark in that form: then it is called unknown. -/
theorem concat_call_by_joined_name (hn : s.node.callee? = some n) (he : n.Spells (.concat a b))
    (hn' : s'.node.callee? = some n') (he' : n'.Spells (.concat a' b'))
    (hpolicy : c'.policy = c.policy) (hgraph : c'.graph = c.graph) (hfacts : c'.facts = c.facts) :
    let name := (TextExpr.concat a b).joined c.facts
    (name = (TextExpr.concat a' b').joined c.facts →
      (concatCall c s).map Violation.told = (concatCall c' s').map Violation.told) ∧
    ∃ x, concatCall c s = [x] ∧
      (IsJudged name ↔ x.type = joinedType (c.nameVerdict? (Text.lower name))) ∧
      (¬ IsJudged name ↔ x.type = "backdoor_concat_function_call_unknown") := by
  intro name
  constructor
  · intro hname
    apply told_concatCall hn he hn' he' hpolicy hgraph
    rw [hfacts]
    exact hname
  · obtain ⟨x, hx, hjudged, hunknown⟩ := type_concatCall (c := c) hn he rfl
    have happart : joinedType (c.nameVerdict? (Text.lower name)) ≠
        "backdoor_concat_function_call_unknown" := by
      cases c.nameVerdict? (Text.lower name) with
      | none => decide
      | some verdict => cases verdict <;> decide
    refine ⟨x, hx, ⟨hjudged, ?_⟩, ⟨hunknown, ?_⟩⟩
    · intro htype
      by_contra h
      exact happart (htype.symm.trans (hunknown h))
    · intro htype h
      exact happart ((hjudged h).symm.trans htype)

end Joined

section Calls

/-- A call without arguments of the function that an expression names. -/
def callOf (e : TextExpr) : Site :=
  ⟨.mk .functionCallExpression none 0 0 1 ((e.node none).text ++ "()")
    [e.node (some .callee), .mk .arguments (some .arguments) 0 0 1 "()" []],
    none, some .expressionStatement⟩

theorem callee?_callOf (e : TextExpr) : (callOf e).node.callee? = some (e.node (some .callee)) := by
  simp [callOf, Node.callee?, Node.child?, Node.children]

/-- A file where nothing but `system` is forbidden and nothing is known but what the program says. -/
def afterwards (bs : List Build) : Context :=
  let p := forbidding "system"
  let s : Script := ⟨"a.php", .ofBytes ByteArray.empty, (TextExpr.literal "").node none, default⟩
  { startContext p (.empty p 5) s none none with facts := Build.facts bs }

theorem nameVerdict?_afterwards (bs : List Build) (name : String) :
    (afterwards bs).nameVerdict? name =
      if Policy.functionKey name = "system" then some .forbidden else none := by
  have hforbidden : (afterwards bs).policy.isForbiddenFunction name =
      decide (Policy.functionKey name = "system") := by
    simp [afterwards, startContext, Policy.isForbiddenFunction, forbidding]
  have hunsupported : (afterwards bs).policy.isUnsupportedFunction name = false := rfl
  have hchain (candidates : List String) : (afterwards bs).chainsToForbidden candidates = false := by
    have hnone : (afterwards bs).graph.resolveFunction candidates = none := by
      rw [CallGraph.resolveFunction, List.find?_eq_none]
      intro candidate _
      exact Bool.false_ne_true
    rw [chainsToForbidden, hnone]
  rw [nameVerdict?, verdict?, hforbidden, hunsupported, hchain]
  simp

theorem isJudged_system : IsJudged "system" := by
  refine ⟨by decide, ?_, ?_⟩
  · cbv
  · cbv

/-- The calls `($x . 'tem')()` after `$x = 'sys';` and `('s' . ('yst' . 'em'))()`. -/
theorem system_reported_alike :
    let c := afterwards [.set "x" (.literal "sys")]
    let short : TextExpr := .concat (.var "x") (.literal "tem")
    let long : TextExpr := .concat (.literal "s") (.concat (.literal "yst") (.literal "em"))
    short.joined c.facts = "system" ∧ long.joined c.facts = "system" ∧
    (concatCall c (callOf short)).map Violation.told =
      (concatCall c (callOf long)).map Violation.told ∧
    (concatCall c (callOf short)).map Violation.type =
      ["backdoor_concat_function_call_always_forbidden"] := by
  intro c short long
  have hshort : short.joined c.facts = "system" := by decide
  have hlong : long.joined c.facts = "system" := by decide
  have hspells := TextExpr.spells_node (show short.Writable by decide) (some .callee)
  have hspells' := TextExpr.spells_node (show long.Writable by decide) (some .callee)
  obtain ⟨halike, x, hx, hjudged, -⟩ := @concat_call_by_joined_name c c _ _ _ _ _ _ _ _
    (callee?_callOf short) hspells (callee?_callOf long) hspells' rfl rfl rfl
  refine ⟨hshort, hlong, halike (hshort.trans hlong.symm), ?_⟩
  have hkey : Policy.functionKey (Text.lower "system") = "system" := by cbv
  have hverdict : c.nameVerdict? (Text.lower (short.joined c.facts)) = some .forbidden := by
    rw [hshort, nameVerdict?_afterwards, if_pos hkey]
  have htype := hjudged.1 (by rw [hshort]; exact isJudged_system)
  rw [hverdict] at htype
  rw [hx]
  exact congrArg (fun t => [t]) htype

/-- All pieces of a name are known and no mark stands in it, and still a call of it is reported as one
of an unknown name, on which there is no verdict. -/
structure KnownCalledUnknown (c : Context) (e : TextExpr) (name : String) : Prop where
  spells : (e.node (some .callee)).Spells e
  joined : e.joined c.facts = name
  unmarked : Text.contains name dynamicMark = false ∧ Text.contains name superglobalMark = false
  harmless : c.nameVerdict? (Text.lower name) = none
  unknown : ∃ x, concatCall c (callOf e) = [x] ∧ x.type = "backdoor_concat_function_call_unknown"

theorem knownCalledUnknown {a b : TextExpr} {name : String} (he : (TextExpr.concat a b).Writable)
    (hname : (TextExpr.concat a b).joined (afterwards []).facts = name)
    (hunmarked : Text.contains name dynamicMark = false ∧ Text.contains name superglobalMark = false)
    (hkey : Policy.functionKey (Text.lower name) ≠ "system") (h : ¬ IsJudged name) :
    KnownCalledUnknown (afterwards []) (.concat a b) name := by
  have hspells := TextExpr.spells_node he (some .callee)
  obtain ⟨x, hx, -, htype⟩ := type_concatCall (callee?_callOf _) hspells hname
  have hverdict : (afterwards []).nameVerdict? (Text.lower name) = none := by
    rw [nameVerdict?_afterwards, if_neg hkey]
  exact ⟨hspells, hname, hunmarked, hverdict, x, hx, htype h⟩

/-- The calls `('' . '')()` and `('{Dyn' . 'amic}')()`. -/
theorem known_names_called_unknown :
    KnownCalledUnknown (afterwards []) (.concat (.literal "") (.literal "")) "" ∧
    KnownCalledUnknown (afterwards []) (.concat (.literal "\x7bDyn") (.literal "amic\x7d"))
      "\x7bDynamic\x7d" := by
  have hlower : Text.lower "\x7bDynamic\x7d" = dynamicMark := by cbv
  have hmark : Policy.functionKey dynamicMark ≠ "system" := by cbv
  have hempty : Policy.functionKey (Text.lower "") ≠ "system" := by cbv
  constructor
  · exact knownCalledUnknown (by decide) (by decide) (by decide) hempty fun h => h.1 rfl
  · have hname : (TextExpr.concat (.literal "\x7bDyn") (.literal "amic\x7d")).joined
        (afterwards []).facts = "\x7bDynamic\x7d" := by decide
    apply knownCalledUnknown (by decide) hname (by decide)
    · rw [hlower]
      exact hmark
    · intro h
      have hmarked := h.2.1
      rw [hlower, Text.contains_self] at hmarked
      cases hmarked

end Calls

end Detect

end Php

end PluginAudit
