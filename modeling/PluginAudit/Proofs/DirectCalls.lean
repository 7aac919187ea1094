import PluginAudit.Proofs.ReportedTypes
import PluginAudit.Proofs.Trees
import PluginAudit.Proofs.Visits

namespace PluginAudit.Php

open Detect

theorem Names.functionCandidates_ne_nil (names : Names) (name : String) (offset : Nat) :
    names.functionCandidates name offset ≠ [] := by
  unfold Names.functionCandidates
  dsimp only
  split
  · exact List.cons_ne_nil _ _
  · split
    · split
      · exact List.cons_ne_nil _ _
      · split <;> exact List.cons_ne_nil _ _
    · split
      · exact List.cons_ne_nil _ _
      · split <;> exact List.cons_ne_nil _ _

theorem Names.getLast?_functionCandidates (names : Names) (name : String) (offset : Nat) :
    (names.functionCandidates name offset).getLast? = some (names.globalFunction name offset) := by
  rw [Names.globalFunction, List.getLastD_eq_getLast?,
    List.getLast?_eq_some_getLast (names.functionCandidates_ne_nil name offset), Option.getD_some]

/-- The forbidden function that a node calls by its name: the last name under which the function is
looked up where its name stands. -/
def directCall? (names : Names) (policy : Policy) (n : Node) : Option String :=
  if n.kind = .functionCallExpression then
    match n.callee? with
    | some fn =>
      if fn.isName then
        (names.functionCandidates fn.text fn.start).getLast?.filter policy.isForbiddenFunction
      else none
    | none => none
  else none

/-- The violation of a node that calls a forbidden function. -/
def directCallRow (s : Script) (n : Node) (name : String) : Violation where
  type := "always_forbidden_function"
  severity := if name = "eval" then .critical else .high
  file := s.path
  line := n.line
  snippet := s.source.lineText n.line
  issue := s!"Call to forbidden function {name}()"
  data := [("function", .text name)]

/-- Whether a violation is about a direct call of a forbidden function. -/
def isDirectCall (v : Violation) : Bool :=
  v.type == "always_forbidden_function"

theorem filter_eq_nil_of_onlyTypes {types : List String} {d : Detector} (h : OnlyTypes types d)
    (htypes : types ∈ otherTypes) (c : Context) (s : Site) : (d c s).filter isDirectCall = [] := by
  have hnone : ∀ types ∈ otherTypes, "always_forbidden_function" ∉ types := by decide
  rw [List.filter_eq_nil_iff]
  intro v hv heq
  have htype : v.type = "always_forbidden_function" := by simpa [isDirectCall] using heq
  exact hnone types htypes (htype ▸ (h c s v hv).1)

theorem filter_namedCall (c : Context) {s : Site} (hk : s.node.kind = .functionCallExpression) :
    (namedCall c s).filter isDirectCall =
      ((directCall? c.script.names c.policy s.node).map (directCallRow c.script s.node)).toList := by
  unfold namedCall directCall? Context.called?
  cases hcallee : s.node.callee? with
  | none => simp [hk]
  | some fn =>
    cases hname : fn.isName with
    | false => simp [hk, hname]
    | true =>
      simp only [hk, hname, if_true, Names.getLast?_functionCandidates, List.filter_append]
      generalize c.script.names.globalFunction fn.text fn.start = name
      have hother (on : Bool) (type : String) (severity : Severity) (issue : String)
          (htype : type ≠ "always_forbidden_function") :
          (if on = true then [c.violation type severity s.node issue (function name)]
            else []).filter isDirectCall = [] := by
        cases on <;> simp [isDirectCall, Context.violation, htype]
      rw [hother _ _ _ _ (by decide), hother _ _ _ _ (by decide), hother _ _ _ _ (by decide),
        hother _ _ _ _ (by decide)]
      cases hforbidden : c.policy.isForbiddenFunction name with
      | false =>
        simp only [Bool.false_eq_true, if_false, Option.filter, hforbidden]
        rw [hother _ _ _ _ (by decide)]
        rfl
      | true =>
        simp [isDirectCall, Context.violation, Option.filter, hforbidden, directCallRow, function]

/-- At each node the call of a forbidden function is reported, whatever is known there. -/
theorem filter_visit (c : Context) (s : Site) :
    (visit c s).filter isDirectCall =
      ((directCall? c.script.names c.policy s.node).map (directCallRow c.script s.node)).toList := by
  rw [visit, List.filter_flatMap]
  by_cases hk : s.node.kind = .functionCallExpression
  · have hrest : callDetectors.tail.flatMap (fun d => (d c s).filter isDirectCall) = [] := by
      rw [List.flatMap_eq_nil_iff]
      intro d hd
      obtain ⟨types, htypes, honly⟩ := exists_onlyTypes_of_call hd
      exact filter_eq_nil_of_onlyTypes honly htypes c s
    have hcalls : detectors s.node.kind = namedCall :: callDetectors.tail := by rw [hk]; rfl
    rw [hcalls, List.flatMap_cons, hrest, List.append_nil, filter_namedCall c hk]
  · rw [directCall?, if_neg hk, List.flatMap_eq_nil_iff.2]
    · rfl
    · intro d hd
      obtain ⟨types, htypes, honly⟩ := exists_onlyTypes_of_mem hk hd
      exact filter_eq_nil_of_onlyTypes honly htypes c s

theorem filter_visits (c : Context) (sites : List Site) :
    ((visits c sites).flatMap fun p => visit p.1 p.2).filter isDirectCall =
      (sites.map Site.node).filterMap fun n =>
        (directCall? c.script.names c.policy n).map (directCallRow c.script n) := by
  induction sites generalizing c with
  | nil => rfl
  | cons s rest ih =>
    rw [visits, List.flatMap_cons, List.filter_append, filter_visit, ih, List.map_cons,
      List.filterMap_cons]
    cases (directCall? c.script.names c.policy s.node).map (directCallRow c.script s.node) <;> rfl

end PluginAudit.Php
