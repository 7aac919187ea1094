import PluginAudit.Lines
import PluginAudit.Php.Tokens
import PluginAudit.Proofs.Trees
import PluginAudit.Proofs.Visits
import Mathlib

namespace PluginAudit.Php

namespace Node

/-- The value of a string literal, or of a concatenation of literals. -/
def constantText? (n : Node) : Option String :=
  (n.concatParts.mapM literal?).map String.join

theorem literal?_of_constantText? {n : Node} {v : String} (h : n.constantText? = some v)
    (hn : n.unwrap.isConcat = false) : n.unwrap.literal? = some v := by
  rw [constantText?, concatParts_of_not_concat n hn] at h
  cases hv : n.unwrap.literal? with
  | none => simp [hv] at h
  | some w => simpa [hv, String.join] using h

end Node

namespace Token

/-- The tokens end in a literal and a dot, so that a string behind them is joined to the literal. -/
def EndInJoin (ts : List Token) : Prop :=
  ∃ front t dot, ts = front ++ [t, dot] ∧ t.isString = true ∧ t.value.isSome = true ∧ dot.text = "."

theorem EndInJoin.of_suffix {ts us : List Token} (h : us <:+ ts) (hus : EndInJoin us) :
    EndInJoin ts := by
  obtain ⟨front, t, dot, rfl, ht⟩ := hus
  obtain ⟨before, rfl⟩ := h
  exact ⟨before ++ front, t, dot, by simp, ht⟩

/-- A run of strings that starts before `t` ends before it, unless it is joined to it. -/
theorem stringRun_append {t : Token} (hdot : t.text ≠ ".") (post : List Token) :
    ∀ (joined : String) (u : Token) (pre : List Token), u.isString = true →
      ¬ EndInJoin (u :: pre) →
      ∃ rest, rest <:+ pre ∧ (stringRun joined (u :: pre ++ t :: post)).rest = rest ++ t :: post
  | joined, u, [], _, _ => by
    refine ⟨[], List.suffix_refl [], ?_⟩
    unfold stringRun
    cases hv : u.value <;> cases post <;> simp [hv, hdot]
  | joined, u, [d], hu, hpre => by
    refine ⟨[d], List.suffix_refl [d], ?_⟩
    unfold stringRun
    cases hv : u.value with
    | none => simp [hv]
    | some v =>
      have hd : d.text ≠ "." := fun hd => hpre ⟨[], u, d, rfl, hu, by simp [hv], hd⟩
      simp [hv, hd]
  | joined, u, d :: n :: more, hu, hpre => by
    have hmore : ¬ EndInJoin (n :: more) := fun h => hpre (h.of_suffix ⟨[u, d], rfl⟩)
    unfold stringRun
    cases hv : u.value with
    | none => exact ⟨d :: n :: more, List.suffix_refl _, by simp [hv]⟩
    | some v =>
      by_cases hjoin : d.text = "." ∧ n.isString = true
      · obtain ⟨rest, hrest, hrun⟩ := stringRun_append hdot post (joined ++ v) n more hjoin.2 hmore
        refine ⟨rest, hrest.trans ⟨[d, n], rfl⟩, ?_⟩
        simpa [hv, hjoin] using hrun
      · refine ⟨d :: n :: more, List.suffix_refl _, ?_⟩
        simp [hv, hjoin]

theorem isCalled_head {ts : List Token} (h : isCalled ts = true) :
    ∃ t rest, ts = t :: rest ∧ (t.text = ")" ∨ t.text = "(") := by
  cases ts with
  | nil => cases h
  | cons t rest =>
    refine ⟨t, rest, rfl, ?_⟩
    rw [isCalled] at h
    split at h
    case isTrue ht => exact .inl (by simpa using ht)
    case isFalse => exact .inr (by simpa using h)

theorem uses_skip {t : Token} (ht : t.isString = false) (hname : isIdentifier t.text = false)
    (unwanted : List String) (previous : Option String) (rest : List Token) :
    uses unwanted previous (t :: rest) = uses unwanted (some t.text) rest := by
  rw [uses]
  simp [ht, hname]

/-- The token before matters to a name only. -/
theorem uses_called {ts : List Token} (h : isCalled ts = true) (unwanted : List String)
    (previous previous' : Option String) : uses unwanted previous ts = uses unwanted previous' ts := by
  obtain ⟨t, rest, rfl, ht⟩ := isCalled_head h
  have hname : isIdentifier t.text = false := by
    obtain ht | ht := ht
    · rw [ht]
      rfl
    · rw [ht]
      rfl
  rw [uses, uses, hname]
  rfl

/-- A literal that is called stands for itself: its use is reported if its name is listed. -/
theorem uses_literal {t : Token} {v : String} {post : List Token} (unwanted : List String)
    (previous : Option String) (ht : t.isString = true) (hv : t.value = some v)
    (hpost : isCalled post = true) :
    uses unwanted previous (t :: post) =
      (if Text.lower v ∈ unwanted then [⟨Text.lower v, .assembled, t.line⟩] else []) ++
        uses unwanted none post := by
  obtain ⟨next, rest, rfl, hparen⟩ := isCalled_head hpost
  have hnext : next.text ≠ "." := by
    obtain hparen | hparen := hparen
    · rw [hparen]
      decide
    · rw [hparen]
      decide
  have run : stringRun "" (t :: next :: rest) = ⟨some v, t.text, next :: rest⟩ := by
    unfold stringRun
    cases rest <;> simp [hv, hnext]
  rw [uses, uses_called hpost unwanted none (some t.text)]
  simp only [ht, run, hpost, if_true, Bool.true_and, List.contains_iff_mem]
  split <;> simp

/-- What is found is reported of tokens in `pre`, and then from the tokens `rest` on. -/
def Reaches (unwanted : List String) (pre rest : List Token) (found : List Use) : Prop :=
  ∃ front last, (∀ u ∈ front, ∃ t ∈ pre, u.line = t.line) ∧
    found = front ++ uses unwanted last rest

section Reaches

variable {unwanted : List String} {pre rest : List Token} {found : List Use}

theorem Reaches.mono {pre' : List Token} (h : Reaches unwanted pre rest found)
    (hpre : pre ⊆ pre') : Reaches unwanted pre' rest found := by
  obtain ⟨front, last, hfront, hfound⟩ := h
  refine ⟨front, last, fun u hu => ?_, hfound⟩
  obtain ⟨t, ht, hline⟩ := hfront u hu
  exact ⟨t, hpre ht, hline⟩

theorem Reaches.report {t : Token} (h : Reaches unwanted pre rest found) (ht : t ∈ pre)
    (name : String) (style : Style) :
    Reaches unwanted pre rest (⟨name, style, t.line⟩ :: found) := by
  obtain ⟨front, last, hfront, hfound⟩ := h
  refine ⟨⟨name, style, t.line⟩ :: front, last, ?_, by rw [hfound, List.cons_append]⟩
  exact List.forall_mem_cons.2 ⟨⟨t, ht, rfl⟩, hfront⟩

end Reaches

/-- A string is reached by itself, unless one before it is joined to it. -/
theorem reaches_string {t : Token} (hdot : t.text ≠ ".") (unwanted : List String)
    (post : List Token) (previous : Option String) (pre : List Token) (hpre : ¬ EndInJoin pre) :
    Reaches unwanted pre (t :: post) (uses unwanted previous (pre ++ t :: post)) := by
  induction hn : pre.length using Nat.strongRecOn generalizing previous pre with
  | ind n ih =>
    cases pre with
    | nil => exact ⟨[], previous, by simp, rfl⟩
    | cons u pre =>
      have later {rest : List Token} (hrest : rest <:+ pre) (previous : Option String) :
          Reaches unwanted (u :: pre) (t :: post) (uses unwanted previous (rest ++ t :: post)) := by
        have hsuffix : rest <:+ u :: pre := hrest.trans (List.suffix_cons u pre)
        have hlength := hrest.length_le
        refine (ih rest.length ?_ previous rest ?_ rfl).mono hsuffix.subset
        · rw [← hn, List.length_cons]
          omega
        · exact fun h => hpre (h.of_suffix hsuffix)
      rw [List.cons_append, uses]
      by_cases hu : u.isString
      · obtain ⟨rest, hrest, hrun⟩ := stringRun_append hdot post "" u pre hu hpre
        rw [List.cons_append] at hrun
        simp only [hu, if_true, hrun]
        have hlater := later hrest (some (stringRun "" (u :: (pre ++ t :: post))).last)
        split
        · split
          · exact hlater.report List.mem_cons_self _ _
          · exact hlater
        · exact hlater
      · have hlater := later (List.suffix_refl pre) (some u.text)
        rw [if_neg hu]
        dsimp only
        split
        · exact hlater.report List.mem_cons_self _ _
        · exact hlater

end Token

open Detect

section Detectors

variable {site : Site} {f : Node}

theorem called?_of_literal (c : Context) {v : String} (hcallee : site.node.callee? = some f)
    (hf : f.unwrap.literal? = some v) : c.called? site.node = none := by
  have hname : f.isName = false := by
    have hstring := Node.isString_of_literal? hf
    rw [Node.unwrap_unwrap] at hstring
    by_cases hk : f.kind = .parenthesizedExpression
    · rw [Node.isName, hk]
      rfl
    · rw [Node.unwrap_of_kind hk] at hstring
      rw [Node.isName]
      cases hkind : f.kind <;> simp_all [Kind.isString, Kind.isName]
  simp [Context.called?, hcallee, hname]

/-- At a call of a lone literal all detectors are silent: none of them looks at its value. -/
theorem visit_literal_callee (c : Context) {v : String}
    (hkind : site.node.kind = .functionCallExpression) (hcallee : site.node.callee? = some f)
    (hf : f.unwrap.literal? = some v) : visit c site = [] := by
  have hcalled := called?_of_literal c hcallee hf
  have hstring := Node.isString_of_literal? hf
  rw [Node.unwrap_unwrap] at hstring
  have hsubscript : (f.unwrap.kind == .subscriptExpression) = false := by
    cases hk : f.unwrap.kind <;> simp_all [Kind.isString]
  have hconcat : f.unwrap.isConcat = false := by
    rw [Node.isConcat]
    cases hk : f.unwrap.kind <;> simp_all [Kind.isString]
  have hvariable : f.unwrap.plainVariable? = none := by
    rw [Node.plainVariable?, Node.unwrap_unwrap]
    cases hk : f.unwrap.kind <;> simp_all [Kind.isString]
  simp [visit, hkind, detectors, callDetectors, namedCall, variableCall, concatCall, callback,
    obfuscatedEval, wrapperStream, requestCode, hcalled, hcallee, hsubscript, hconcat, hvariable]

theorem visit_concat_callee (c : Context) (hkind : site.node.kind = .functionCallExpression)
    (hcallee : site.node.callee? = some f) (hf : f.unwrap.isConcat = true) :
    ∃ x ∈ visit c site, x.line = site.node.line := by
  obtain ⟨x, hx, hline⟩ := exists_mem_concatCall c (by rw [hcallee]; rfl) hf
  refine ⟨x, ?_, hline⟩
  rw [visit, hkind]
  exact List.mem_flatMap.2 ⟨concatCall, by simp [detectors, callDetectors], hx⟩

end Detectors

/-- The script calls the literal `m` in plain view: `m` is a token of its own, no string is joined
in front of it, and behind it an opening parenthesis follows, after closing ones. -/
def Script.CallsLiteral (s : Script) (m : Node) : Prop :=
  ∃ pre post, s.root.leaves = pre ++ m :: post ∧ ¬ Token.EndInJoin (pre.map Token.ofNode) ∧
    m.text ≠ "." ∧ Token.isCalled (post.map Token.ofNode) = true

/-- The scan of tokens looks the literal `m` of value `v` up as it is spelled: but for case, `v` is
listed or `m` is passed over, between what is reported of the tokens before and after it. -/
def Script.LooksUp (s : Script) (unwanted : List String) (m : Node) (v : String) : Prop :=
  ∃ pre post front, s.root.leaves = pre ++ m :: post ∧
    (∀ u ∈ front, ∃ n ∈ pre, u.line = n.line) ∧
    Token.uses unwanted none s.tokens = front ++
      (if Text.lower v ∈ unwanted then [⟨Text.lower v, .assembled, m.line⟩] else []) ++
      Token.uses unwanted none (post.map Token.ofNode)

theorem Script.CallsLiteral.looksUp {s : Script} {m : Node} {v : String} (h : s.CallsLiteral m)
    (hm : m.unwrap = m) (hv : m.literal? = some v) (unwanted : List String) :
    s.LooksUp unwanted m v := by
  obtain ⟨pre, post, hleaves, hpre, hdot, hpost⟩ := h
  have hstring : m.kind.isString = true := by
    have := Node.isString_of_literal? hv
    rwa [hm] at this
  have hvalue : (Token.ofNode m).value = some v := by simp [Token.ofNode, hstring, hv]
  have hdot' : (Token.ofNode m).text ≠ "." := hdot
  obtain ⟨front, last, hfront, huses⟩ :=
    Token.reaches_string hdot' unwanted (post.map Token.ofNode) none _ hpre
  refine ⟨pre, post, front, hleaves, fun u hu => ?_, ?_⟩
  · obtain ⟨t, ht, hline⟩ := hfront u hu
    obtain ⟨n, hn, rfl⟩ := List.mem_map.1 ht
    exact ⟨n, hn, hline⟩
  · rw [Script.tokens, hleaves, List.map_append, List.map_cons, huses,
      Token.uses_literal unwanted last hstring hvalue hpost, List.append_assoc]
    rfl

theorem Script.LooksUp.mem_scanTokens {s : Script} {m : Node} {v : String}
    {unwanted : List String} (h : s.LooksUp unwanted m v) (hlisted : Text.lower v ∈ unwanted) :
    ∃ x ∈ s.scanTokens unwanted, x.line = m.line := by
  obtain ⟨pre, post, front, -, -, huses⟩ := h
  refine ⟨s.useViolation ⟨Text.lower v, .assembled, m.line⟩, ?_, rfl⟩
  refine List.mem_append_left _ (List.mem_map_of_mem ?_)
  rw [huses, if_pos hlisted]
  exact List.mem_append_left _ (List.mem_append_right _ (List.mem_singleton_self _))

section Programs

variable (literal : String) (stop : Nat)

def literalCallee : Node :=
  .mk .string (some .callee) 6 stop 1 literal []

/-- A call of a literal without arguments. -/
def literalCall : Node :=
  .mk .functionCallExpression none 6 (stop + 2) 1 (literal ++ "()") [
    literalCallee literal stop,
    .mk .arguments (some .arguments) stop (stop + 2) 1 "()" [
      .mk .token none stop (stop + 1) 1 "(" [],
      .mk .token none (stop + 1) (stop + 2) 1 ")" []]]

/-- The tree of a source that calls a literal and does nothing else; the literal ends at `stop`. -/
def literalProgram : Node :=
  .mk .program none 0 (stop + 3) 1 ("<?php " ++ literal ++ "();") [
    .mk .phpTag none 0 5 1 "<?php" [],
    .mk .expressionStatement none 6 (stop + 3) 1 (literal ++ "();") [
      literalCall literal stop,
      .mk .token none (stop + 2) (stop + 3) 1 ";" []]]

variable {literal stop}

theorem leaves_literalProgram (h : 6 < stop) :
    (literalProgram literal stop).leaves =
      [.mk .phpTag none 0 5 1 "<?php" []] ++ literalCallee literal stop ::
      [.mk .token none stop (stop + 1) 1 "(" [], .mk .token none (stop + 1) (stop + 2) 1 ")" [],
        .mk .token none (stop + 2) (stop + 3) 1 ";" []] := by
  simp [literalProgram, literalCall, literalCallee, Node.leaves, Node.leavesAll, Kind.isString, h]

theorem callsLiteral_literalProgram {s : Script} (hroot : s.root = literalProgram literal stop)
    (hstop : 6 < stop) (hdot : literal ≠ ".") : s.CallsLiteral (literalCallee literal stop) := by
  refine ⟨_, _, by rw [hroot, leaves_literalProgram hstop], ?_, hdot, rfl⟩
  rintro ⟨front, t, dot, heq, -⟩
  have := congrArg List.length heq
  simp at this

theorem mem_literalProgram : ⟨literalCall literal stop, none, some .expressionStatement⟩ ∈
    (Site.root (literalProgram literal stop)).preorder := by
  refine List.mem_of_getElem? (i := 3) ?_
  rfl

theorem constantText?_literalCallee :
    (literalCallee literal stop).constantText? = Literal.unquote literal := by
  have hliteral : (literalCallee literal stop).literal? = Literal.unquote literal := rfl
  have hparts : (literalCallee literal stop).concatParts = [literalCallee literal stop] :=
    Node.concatParts_of_not_concat _ rfl
  rw [Node.constantText?, hparts]
  cases hv : Literal.unquote literal <;> simp [hliteral, hv, String.join]

end Programs

/-- The policy that forbids one function. -/
def forbidding (name : String) : Policy :=
  { (default : Policy) with forbiddenFunctions := [name] }

set_option maxRecDepth 10000 in
theorem tree_backslashed :
    (Source.ofBytes "<?php '\\exec'();".toUTF8).tree = literalProgram "'\\exec'" 13 := by
  cbv

theorem lines_backslashed :
    Lines.scan (.ofPolicy (forbidding "exec") none) "a.php" "<?php '\\exec'();" = [] := by
  have hsearches : Lines.Searches.ofPolicy (forbidding "exec") none =
      ⟨forbidding "exec", [], ["exec"], []⟩ := by
    simp [Lines.Searches.ofPolicy, forbidding, Lines.byLength, Text.sortedSet, List.eraseReps,
      List.eraseRepsBy, List.eraseRepsBy.loop, default, instInhabitedPolicy.default]
  have hlines : Text.linesOf (Text.withNewlines "<?php '\\exec'();") = ["<?php '\\exec'();"] := by
    cbv
  have hcall : (Lines.callOf ["exec"]).search "<?php '\\exec'();" = none := by decide +kernel
  have hassign : (Lines.assignmentOf ["exec"] "(").search "<?php '\\exec'();" = none := by
    decide +kernel
  have hclasses : (forbidding "exec").allowedClassMethods = [] := rfl
  have hnamespaces : (forbidding "exec").forbiddenNamespaces = [] := rfl
  rw [Lines.scan, hsearches, hlines]
  simp [List.range_succ, Lines.lineViolations, Lines.tokenViolations, Lines.namespaceViolations,
    Lines.functionViolations, Lines.Line.report, hcall, hassign, hclasses, hnamespaces]

theorem tokens_backslashed {s : Script} (hroot : s.root = literalProgram "'\\exec'" 13)
    (hsource : s.source = Source.ofBytes "<?php '\\exec'();".toUTF8) :
    s.scanTokens ["exec"] = [] := by
  have hvalue : (Token.ofNode (literalCallee "'\\exec'" 13)).value = some "\\exec" := by decide
  have hlower : Text.lower "\\exec" = "\\exec" := by cbv
  have hback : s.backtickLines = [] := by
    rw [Script.backtickLines, hsource]
    decide +kernel
  have huses : Token.uses ["exec"] none s.tokens = [] := by
    rw [Script.tokens, hroot, leaves_literalProgram (by decide), List.map_append, List.map_cons]
    simp only [List.map_cons, List.map_nil, List.cons_append, List.nil_append]
    rw [Token.uses_skip rfl (by decide), Token.uses_literal _ _ rfl hvalue rfl, hlower,
      if_neg (by decide), Token.uses_skip rfl (by decide), Token.uses_skip rfl (by decide),
      Token.uses_skip rfl (by decide), Token.uses, List.nil_append]
  rw [Script.scanTokens, hback, huses]
  rfl

theorem sites_literalProgram {literal : String} {stop : Nat} {site : Site}
    (h : site ∈ (Site.root (literalProgram literal stop)).preorder) :
    site.node = literalCall literal stop ∨ site.node = literalCallee literal stop ∨
      detectors site.node.kind = [] := by
  simp only [Site.preorder, Site.root, literalProgram, literalCall, literalCallee, Site.sitesOf,
    Site.sitesOfAll, List.cons_append, List.nil_append, List.append_nil, List.mem_cons,
    List.not_mem_nil, or_false] at h
  obtain rfl | rfl | rfl | rfl | rfl | rfl | rfl | rfl | rfl := h
  case inr.inr.inr.inl => exact .inl rfl
  case inr.inr.inr.inr.inl => exact .inr (.inl rfl)
  all_goals exact .inr (.inr rfl)

theorem visit_literalProgram {literal v : String} {stop : Nat} {c : Context}
    (hv : Literal.unquote literal = some v) (hpolicy : c.policy.forbiddenNamespaces = [])
    {site : Site} (h : site ∈ (Site.root (literalProgram literal stop)).preorder) :
    visit c site = [] := by
  have hliteral : (literalCallee literal stop).literal? = some v := hv
  obtain hcall | hcallee | hother := sites_literalProgram h
  · have hcallee : site.node.callee? = some (literalCallee literal stop) := by rw [hcall]; rfl
    exact visit_literal_callee c (by rw [hcall]; rfl) hcallee hliteral
  · have hdetectors : detectors site.node.kind = [namespaceString] := by rw [hcallee]; rfl
    have hnamespace : c.policy.forbiddenNamespaceFor? v = none := by
      simp [Policy.forbiddenNamespaceFor?, hpolicy]
    rw [visit, hdetectors]
    simp [namespaceString, hcallee, hliteral, hnamespace]
  · rw [visit, hother, List.flatMap_nil]

theorem scan_backslashed (graph : CallGraph) {s : Script}
    (hroot : s.root = literalProgram "'\\exec'" 13) :
    scan (forbidding "exec") graph s none none = [] := by
  have hfault : parseFault s = [] := by
    rw [parseFault, hroot]
    rfl
  have hsize : tooLarge (startContext (forbidding "exec") graph s none none) = [] := rfl
  rw [scan_eq, hfault, hsize, List.nil_append, List.nil_append, List.flatMap_eq_nil_iff]
  rintro ⟨c, site⟩ hvisit
  obtain ⟨hsite, facts, rfl⟩ := of_mem_visits hvisit
  rw [hroot] at hsite
  exact visit_literalProgram (v := "\\exec") (by decide) rfl hsite

end PluginAudit.Php
