import PluginAudit.Proofs.Tightening
import PluginAudit.Proofs.Visits

namespace PluginAudit.Php

namespace Detect

open Context

/-- If there is a violation in the first list, there is one in the second. -/
def Follows (xs ys : List Violation) : Prop :=
  xs ≠ [] → ys ≠ []

namespace Follows

variable {xs ys xs' ys' : List Violation}

theorem refl (xs : List Violation) : Follows xs xs :=
  id

theorem nil (ys : List Violation) : Follows [] ys :=
  fun h => absurd rfl h

theorem of_ne_nil (h : ys ≠ []) : Follows xs ys :=
  fun _ => h

theorem append (h : Follows xs ys) (h' : Follows xs' ys') : Follows (xs ++ xs') (ys ++ ys') := by
  intro hne
  rw [Ne, List.append_eq_nil_iff, not_and_or] at hne ⊢
  exact hne.imp h h'

theorem flatMap {α : Type} {f g : α → List Violation} {items : List α}
    (h : ∀ x ∈ items, Follows (f x) (g x)) : Follows (items.flatMap f) (items.flatMap g) := by
  intro hne
  rw [Ne, List.flatMap_eq_nil_iff] at hne ⊢
  exact fun hnil => hne fun x hx => by_contra fun hf => h x hx hf (hnil x hx)

/-- What is reported on a condition is reported on a weaker one. -/
theorem ite {a b : Bool} (h : a = true → b = true) (hys : ys ≠ []) :
    Follows (if a then xs else []) (if b then ys else []) := by
  cases a with
  | false => exact nil _
  | true =>
    rw [h rfl]
    exact of_ne_nil hys

/-- Of two conditions, each with its own report, a stronger one may take over from a weaker. -/
theorem ladder {a b a' b' : Bool} (ha : a = true → a' = true) (hb : b = true → b' = true)
    (hys : ys ≠ []) (hys' : ys' ≠ []) :
    Follows (if a then xs else if b then xs' else [])
      (if a' then ys else if b' then ys' else []) := by
  cases a' with
  | true => exact of_ne_nil hys
  | false =>
    cases a with
    | true => cases ha rfl
    | false => exact ite hb hys'

theorem verdict {v v' : Option Context.Verdict} {forbidden unsupported chain : List Violation}
    (hforbidden : forbidden ≠ []) (hunsupported : unsupported ≠ []) (hchain : chain ≠ []) :
    (v.isSome = true → v'.isSome = true) → Follows
      (match v with
        | some .forbidden => xs
        | some .unsupported => ys
        | some .chain => xs'
        | none => [])
      (match v' with
        | some .forbidden => forbidden
        | some .unsupported => unsupported
        | some .chain => chain
        | none => []) := by
  intro h
  cases v with
  | none => exact nil _
  | some w =>
    obtain ⟨w', hw'⟩ := Option.isSome_iff_exists.1 (h rfl)
    rw [hw']
    cases w' with
    | forbidden => exact of_ne_nil hforbidden
    | unsupported => exact of_ne_nil hunsupported
    | chain => exact of_ne_nil hchain

theorem found {o o' : Option String} {f g : String → List Violation} (hg : ∀ x, g x ≠ []) :
    (o.isSome = true → o'.isSome = true) → Follows
      (match o with
        | some x => f x
        | none => [])
      (match o' with
        | some x => g x
        | none => []) := by
  intro h
  cases o with
  | none => exact nil _
  | some x =>
    obtain ⟨y, hy⟩ := Option.isSome_iff_exists.1 (h rfl)
    rw [hy]
    exact of_ne_nil (hg y)

theorem wrapper {o o' : Option String} {f g : String → List Violation} (hg : ∀ x, g x ≠ []) :
    (∀ x, o = some x → x ≠ "" → ∃ y, o' = some y ∧ y ≠ "") → Follows
      (match o with
        | some x => if x == "" then [] else f x
        | none => [])
      (match o' with
        | some x => if x == "" then [] else g x
        | none => []) := by
  intro h
  cases o with
  | none => exact nil _
  | some x =>
    by_cases hx : x = ""
    · simp only [hx, beq_self_eq_true, if_true]
      exact nil _
    · obtain ⟨y, hy, hne⟩ := h x rfl hx
      simp only [hy, beq_eq_false_iff_ne.2 hne, Bool.false_eq_true, if_false]
      exact of_ne_nil (hg y)

end Follows

/-- A detector that reports something goes on doing so under a tighter policy. -/
def KeepsFlags (d : Detector) : Prop :=
  ∀ {c : Context} {q : Policy}, c.TightenedBy q → ∀ s, Follows (d c s) (d (c.under q) s)

theorem keepsFlags_namedCall : KeepsFlags namedCall := by
  intro c q h s
  unfold namedCall
  rw [under_called?]
  split
  case h_1 => exact .nil _
  case h_2 f hf =>
    refine .append (.append (.append (.append ?_ ?_) ?_) ?_) ?_
    · exact .ladder h.policy.isForbiddenFunction h.policy.isUnsupportedFunction
        (List.cons_ne_nil _ _) (List.cons_ne_nil _ _)
    · exact .ite (Policy.contains_mono h.policy.dangerousFunctions) (List.cons_ne_nil _ _)
    · exact .ite (Policy.contains_mono h.policy.riskyFunctions) (List.cons_ne_nil _ _)
    · exact .ite h.policy.isObfuscator (List.cons_ne_nil _ _)
    · exact .ite h.chainsToForbidden (List.cons_ne_nil _ _)

theorem keepsFlags_variableCall : KeepsFlags variableCall := by
  intro c q h s
  unfold variableCall elementCall
  simp only [under_requestSource?]
  rw [under_facts]
  split
  case h_1 => exact .nil _
  case h_2 fn hfn =>
    split
    case isTrue => split <;> exact .of_ne_nil (List.cons_ne_nil _ _)
    case isFalse =>
      split
      case h_1 => exact .nil _
      case h_2 => split <;> exact .of_ne_nil (List.cons_ne_nil _ _)

theorem keepsFlags_concatCall : KeepsFlags concatCall := by
  intro c q h s
  cases hfn : s.node.callee?.map Node.unwrap with
  | none =>
    simp only [concatCall, hfn]
    exact .nil _
  | some fn =>
    by_cases hconcat : fn.isConcat = true
    · obtain ⟨x, hx, -⟩ := exists_mem_concatCall (c.under q) hfn hconcat
      exact .of_ne_nil (List.ne_nil_of_mem hx)
    · simp only [concatCall, hfn, hconcat]
      exact .nil _

theorem follows_closureCalls {c : Context} {q : Policy} (h : c.TightenedBy q) (closure : Site) :
    Follows (closureCalls c closure) (closureCalls (c.under q) closure) := by
  unfold closureCalls
  simp only [under_called?]
  split
  case h_1 => exact .nil _
  case h_2 body hbody =>
    refine .flatMap fun s hs => ?_
    split
    case isTrue => exact .nil _
    case isFalse =>
      split
      case h_1 => exact .nil _
      case h_2 f hf =>
        exact .verdict (List.cons_ne_nil _ _) (List.cons_ne_nil _ _) (List.cons_ne_nil _ _)
          h.verdict?

theorem follows_namedCallback {c : Context} {q : Policy} (h : c.TightenedBy q) (s : Site)
    (name literal : String) :
    Follows (namedCallback c s name literal) (namedCallback (c.under q) s name literal) := by
  unfold namedCallback
  dsimp only
  split
  case isTrue => exact .nil _
  case isFalse =>
    exact .verdict (List.cons_ne_nil _ _) (List.cons_ne_nil _ _) (List.cons_ne_nil _ _) h.verdict?

theorem keepsFlags_callback : KeepsFlags callback := by
  intro c q h s
  unfold callback
  rw [under_called?]
  split
  case h_1 => exact .nil _
  case h_2 f hf =>
    dsimp only
    cases hcallback : c.policy.isCallbackFunction f.name || invokers.contains f.name with
    | false => exact .nil _
    | true =>
      have hcallback' : ((c.under q).policy.isCallbackFunction f.name ||
          invokers.contains f.name) = true := by
        rw [Bool.or_eq_true] at hcallback ⊢
        exact hcallback.imp_left h.policy.isCallbackFunction
      rw [hcallback']
      refine .flatMap fun arg harg => ?_
      split
      case h_1 literal hliteral => exact follows_namedCallback h s f.name literal
      case h_2 =>
        split
        case isTrue =>
          intro hreport
          have hrows : closureCalls (c.under q) (s.at_ arg.unwrap) ≠ [] := by
            refine follows_closureCalls h (s.at_ arg.unwrap) fun hnone => hreport ?_
            rw [hnone]
            rfl
          rw [if_neg (by simpa using hrows)]
          exact List.append_ne_nil_of_left_ne_nil hrows _
        case isFalse => exact .nil _

theorem keepsFlags_obfuscatedEval : KeepsFlags obfuscatedEval := by
  intro c q h s
  unfold obfuscatedEval
  rw [under_called?]
  split
  case h_1 => exact .nil _
  case h_2 f hf =>
    split
    case isTrue => exact .nil _
    case isFalse =>
      refine .ite (fun hany => ?_) (List.cons_ne_nil _ _)
      obtain ⟨name, hname, hobfuscator⟩ := List.any_eq_true.1 hany
      exact List.any_eq_true.2 ⟨name, hname, h.policy.isObfuscator hobfuscator⟩

theorem keepsFlags_wrapperStream : KeepsFlags wrapperStream := by
  intro c q h s
  unfold wrapperStream
  rw [under_called?]
  split
  case h_1 => exact .nil _
  case h_2 f hf =>
    split
    case isTrue => exact .nil _
    case isFalse =>
      refine .wrapper (fun _ => List.cons_ne_nil _ _) ?_
      intro w hw hne
      obtain ⟨path, hpath, hw⟩ := Option.bind_eq_some_iff.1 hw
      obtain ⟨w', hw', hne'⟩ := h.policy.forbiddenWrapperFor? h.wrappers hw hne
      exact ⟨w', Option.bind_eq_some_iff.2 ⟨path, hpath, hw'⟩, hne'⟩

theorem keepsFlags_requestCode : KeepsFlags requestCode :=
  fun _ _ => .refl _

theorem follows_reflectionRows {c : Context} {q : Policy} (h : c.TightenedBy q) (n : Node)
    (className kind : String) :
    Follows
      (if c.policy.isForbiddenReflection className then reflectionRows c n className kind else [])
      (if (c.under q).policy.isForbiddenReflection className then
        reflectionRows (c.under q) n className kind else []) := by
  refine .ite (fun hreflection => ?_) (List.cons_ne_nil _ _)
  rw [← hreflection]
  exact h.policy.isForbiddenReflection

theorem follows_classReferenceRows {c : Context} {q : Policy} (h : c.TightenedBy q) (n name : Node)
    (kind : String) :
    Follows (classReferenceRows c n name kind) (classReferenceRows (c.under q) n name kind) := by
  unfold classReferenceRows
  split
  case isTrue => exact .nil _
  case isFalse =>
    exact .append (.found (fun _ => List.cons_ne_nil _ _) h.policy.isForbiddenNamespace)
      (follows_reflectionRows h n _ kind)

theorem keepsFlags_dynamicMethod : KeepsFlags dynamicMethod := by
  intro c q h s
  unfold dynamicMethod
  dsimp only
  rw [under_facts, under_scopeClass, under_receiverClass]
  generalize (if s.node.kind == .scopedCallExpression then c.scopeClass (s.node.child? .scope) s
    else c.receiverClass (s.node.child? .object) s) = cls
  split
  case h_1 => exact .nil _
  case h_2 name hname =>
    split
    case isTrue => exact .nil _
    case isFalse =>
      split
      case h_1 => exact .of_ne_nil (List.cons_ne_nil _ _)
      case h_2 var hvar =>
        split
        case h_1 => exact .of_ne_nil (List.cons_ne_nil _ _)
        case h_2 value hvalue =>
          split
          case isTrue => exact .of_ne_nil (List.cons_ne_nil _ _)
          case isFalse =>
            split
            case isTrue => exact .of_ne_nil (List.cons_ne_nil _ _)
            case isFalse =>
              refine .ladder h.policy.isForbiddenName (fun hchains => ?_) (List.cons_ne_nil _ _)
                (List.cons_ne_nil _ _)
              rw [Bool.and_eq_true] at hchains ⊢
              exact hchains.imp_right h.methodChains

theorem keepsFlags_blockedMethod : KeepsFlags blockedMethod := by
  intro c q h s
  have hclass : calledClass (c.under q) s = calledClass c s := rfl
  have hallowed (cls : String) :
      (c.under q).policy.allowedMethodsFor? cls = c.policy.allowedMethodsFor? cls := by
    exact congrArg (Table.find? · _) h.policy.allowedClassMethods
  unfold blockedMethod
  simp only [hclass, hallowed]
  exact .refl _

theorem follows_reference {c : Context} {q : Policy} (h : c.TightenedBy q) (n : Node)
    (o : Option Node) (kind : String) :
    Follows
      (match o with
        | some name => if name.isName then classReferenceRows c n name kind else []
        | none => [])
      (match o with
        | some name => if name.isName then classReferenceRows (c.under q) n name kind else []
        | none => []) := by
  cases o with
  | none => exact .nil _
  | some name =>
    dsimp only
    split
    case isTrue => exact follows_classReferenceRows h n name kind
    case isFalse => exact .nil _

theorem keepsFlags_staticReference : KeepsFlags staticReference :=
  fun h s => follows_reference h s.node _ _

theorem keepsFlags_classConstant : KeepsFlags classConstant :=
  fun h s => follows_reference h s.node _ _

theorem keepsFlags_instanceTest : KeepsFlags instanceTest := by
  intro c q h s
  unfold instanceTest
  split
  case isTrue => exact .nil _
  case isFalse => exact follows_reference h s.node _ _

theorem keepsFlags_instantiation : KeepsFlags instantiation := by
  intro c q h s
  unfold instantiation
  simp only [under_facts]
  split
  case isTrue => exact .of_ne_nil (List.cons_ne_nil _ _)
  case isFalse =>
    split
    case h_1 => exact .nil _
    case h_2 cls hcls =>
      split
      case isTrue => exact follows_classReferenceRows h _ _ _
      case isFalse =>
        split
        case h_1 => exact .of_ne_nil (List.cons_ne_nil _ _)
        case h_2 var hvar =>
          split
          case isTrue => exact .of_ne_nil (List.cons_ne_nil _ _)
          case isFalse =>
            split
            case h_1 => exact .of_ne_nil (List.cons_ne_nil _ _)
            case h_2 => exact .ite h.policy.isForbiddenClass (List.cons_ne_nil _ _)

theorem keepsFlags_parameterType : KeepsFlags parameterType := by
  intro c q h s
  unfold parameterType
  split
  case h_1 => exact .nil _
  case h_2 => exact .flatMap fun name _ => follows_reflectionRows h s.node _ _

theorem follows_clauseRows {c : Context} {q : Policy} (h : c.TightenedBy q) (clause : Node)
    (type kind : String) :
    Follows (clauseRows c clause type kind) (clauseRows (c.under q) clause type kind) := by
  refine .flatMap fun name _ => ?_
  refine .append (.found (fun _ => List.cons_ne_nil _ _) h.policy.isForbiddenNamespace) ?_
  refine .ite (fun hreflection => ?_) (List.cons_ne_nil _ _)
  rw [← hreflection]
  exact congrArg (kind == "extends" && ·) h.policy.isForbiddenReflection

theorem keepsFlags_classDeclaration : KeepsFlags classDeclaration := by
  intro c q h s
  refine .flatMap fun child _ => ?_
  split
  case h_1 => exact follows_clauseRows h _ _ _
  case h_2 => exact follows_clauseRows h _ _ _
  case h_3 => exact .nil _

theorem keepsFlags_traitUse : KeepsFlags traitUse :=
  fun h _ => .flatMap fun _ _ =>
    .found (fun _ => List.cons_ne_nil _ _) h.policy.isForbiddenNamespace

theorem keepsFlags_namespaceImport : KeepsFlags namespaceImport :=
  fun h _ => .flatMap fun _ _ =>
    .found (fun _ => List.cons_ne_nil _ _) h.policy.isForbiddenNamespace

theorem keepsFlags_namespaceString : KeepsFlags namespaceString := by
  intro c q h s
  unfold namespaceString
  split
  case h_1 => exact .nil _
  case h_2 =>
    split
    case isTrue => exact .nil _
    case isFalse => exact .found (fun _ => List.cons_ne_nil _ _) h.policy.isForbiddenNamespace

theorem keepsFlags_magicMethod : KeepsFlags magicMethod := by
  intro c q h s
  unfold magicMethod
  dsimp only
  cases hmagic : c.policy.isForbiddenMagicMethod (CallGraph.textOf (s.node.child? .name)) with
  | false => exact .nil _
  | true =>
    have hmagic' : (c.under q).policy.isForbiddenMagicMethod
        (CallGraph.textOf (s.node.child? .name)) = true := h.policy.isForbiddenMagicMethod hmagic
    rw [hmagic']
    exact .of_ne_nil (List.cons_ne_nil _ _)

theorem keepsFlags_inclusion : KeepsFlags inclusion := by
  intro c q h s
  unfold inclusion
  split
  case h_1 => exact .nil _
  case h_2 target htarget =>
    split
    case h_1 literal hliteral =>
      exact .wrapper (fun _ => List.cons_ne_nil _ _)
        fun w hw hne => h.policy.forbiddenWrapperFor? h.wrappers hw hne
    case h_2 => exact .refl _

theorem keepsFlags_variableVariable : KeepsFlags variableVariable :=
  fun _ _ => .refl _

theorem keepsFlags_dynamicProperty : KeepsFlags dynamicProperty := by
  intro c q h s
  unfold dynamicProperty
  split
  case h_1 => exact .nil _
  case h_2 var hvar =>
    apply Follows.of_ne_nil
    dsimp only
    split <;> exact List.cons_ne_nil _ _

theorem keepsFlags_dynamicStaticProperty : KeepsFlags dynamicStaticProperty :=
  fun _ _ => .refl _

theorem keepsFlags_assignmentLeak : KeepsFlags assignmentLeak := by
  intro c q h s
  unfold assignmentLeak
  split
  case h_1 left right hleft hright =>
    refine .append ?_ ?_
    · split
      case isTrue => exact .nil _
      case isFalse =>
        split
        case h_1 => exact .nil _
        case h_2 => exact .ite id (List.cons_ne_nil _ _)
    · split
      case isTrue => exact .nil _
      case isFalse => exact .of_ne_nil (List.cons_ne_nil _ _)
  case h_2 => exact .nil _

theorem keepsFlags_staticVariable : KeepsFlags staticVariable := by
  intro c q h s
  refine .flatMap fun decl _ => ?_
  split
  case h_1 => exact .nil _
  case h_2 => exact .ite h.holdsDanger (List.cons_ne_nil _ _)

theorem follows_returnedMethod {c : Context} {q : Policy} (h : c.TightenedBy q) (s expr : Site) :
    Follows (returnedMethod c s expr) (returnedMethod (c.under q) s expr) := by
  have hclass : returnedClass (c.under q) expr = returnedClass c expr := rfl
  unfold returnedMethod
  simp only [hclass]
  split
  case h_1 => exact .nil _
  case h_2 =>
    split
    case isTrue => exact .nil _
    case isFalse =>
      refine .ite (fun hchains => ?_) (List.cons_ne_nil _ _)
      rw [Bool.and_eq_true] at hchains ⊢
      exact hchains.imp_right h.methodChains

theorem keepsFlags_returned : KeepsFlags returned := by
  intro c q h s
  unfold returned
  simp only [under_called?]
  split
  case h_1 => exact .nil _
  case h_2 e he =>
    split
    case h_1 => exact .ite h.policy.isForbiddenName (List.cons_ne_nil _ _)
    case h_2 =>
      split
      case h_1 =>
        split
        case h_1 => exact .nil _
        case h_2 cls hcls =>
          refine .ite (fun hclass => ?_) (List.cons_ne_nil _ _)
          rw [Bool.and_eq_true] at hclass ⊢
          exact hclass.imp_right h.policy.isForbiddenClass
      case h_2 =>
        split
        case h_1 => exact .nil _
        case h_2 =>
          exact .ladder h.policy.isForbiddenName h.chainsToForbidden (List.cons_ne_nil _ _)
            (List.cons_ne_nil _ _)
      case h_3 => exact follows_returnedMethod h s _
      case h_4 => exact follows_returnedMethod h s _
      case h_5 => exact .nil _

theorem keepsFlags_of_mem {k : Kind} {d : Detector} (h : d ∈ detectors k) : KeepsFlags d := by
  unfold detectors at h
  split at h
  case h_1 =>
    simp only [callDetectors, List.mem_cons, List.not_mem_nil, or_false] at h
    obtain rfl | rfl | rfl | rfl | rfl | rfl | rfl := h
    · exact keepsFlags_namedCall
    · exact keepsFlags_variableCall
    · exact keepsFlags_concatCall
    · exact keepsFlags_callback
    · exact keepsFlags_obfuscatedEval
    · exact keepsFlags_wrapperStream
    · exact keepsFlags_requestCode
  all_goals simp only [List.mem_cons, List.not_mem_nil, or_false] at h
  case h_2 | h_3 =>
    obtain rfl | rfl := h
    · exact keepsFlags_dynamicMethod
    · exact keepsFlags_blockedMethod
  case h_4 =>
    obtain rfl | rfl | rfl := h
    · exact keepsFlags_staticReference
    · exact keepsFlags_dynamicMethod
    · exact keepsFlags_blockedMethod
  case h_5 => exact h ▸ keepsFlags_instantiation
  case h_6 => exact h ▸ keepsFlags_classConstant
  case h_7 => exact h ▸ keepsFlags_instanceTest
  case h_8 | h_9 | h_10 => exact h ▸ keepsFlags_parameterType
  case h_11 => exact h ▸ keepsFlags_classDeclaration
  case h_12 => exact h ▸ keepsFlags_traitUse
  case h_13 => exact h ▸ keepsFlags_namespaceImport
  case h_14 | h_15 => exact h ▸ keepsFlags_namespaceString
  case h_16 => exact h ▸ keepsFlags_magicMethod
  case h_17 | h_18 | h_19 | h_20 => exact h ▸ keepsFlags_inclusion
  case h_21 => exact h ▸ keepsFlags_variableVariable
  case h_22 | h_23 => exact h ▸ keepsFlags_dynamicProperty
  case h_24 => exact h ▸ keepsFlags_dynamicStaticProperty
  case h_25 | h_26 => exact h ▸ keepsFlags_assignmentLeak
  case h_27 => exact h ▸ keepsFlags_staticVariable
  case h_28 => exact h ▸ keepsFlags_returned

end Detect

open Detect

theorem visits_under (q : Policy) (c : Context) (sites : List Site) :
    visits (c.under q) sites = (visits c sites).map fun v => (v.1.under q, v.2) := by
  induction sites generalizing c with
  | nil => rfl
  | cons s rest ih =>
    rw [visits, visits, List.map_cons, ← ih]
    rfl

theorem startContext_under (p q : Policy) (maxDepth : Int) (scripts : List Script) (s : Script)
    (extension : Option String) (size : Option Nat) :
    (startContext p (.ofScripts p maxDepth scripts) s extension size).under q =
      startContext q (.ofScripts q maxDepth scripts) s extension size := by
  have hgraph : (CallGraph.ofScripts p maxDepth scripts).withSettings q
      (CallGraph.ofScripts p maxDepth scripts).maxDepth = .ofScripts q maxDepth scripts := by
    rw [CallGraph.ofScripts_maxDepth, CallGraph.ofScripts_withSettings]
  rw [Context.under, startContext, startContext, ← hgraph]

/-- A policy that denies some magic methods and nothing else. -/
def denyingMagic (names : List String) : Policy :=
  { (default : Policy) with magicMethods := names }

theorem tightens_denyingMagic {names names' : List String} (h : names ⊆ names') :
    (denyingMagic names).Tightens (denyingMagic names') := by
  constructor
  case magicMethods => exact h
  all_goals first | rfl | exact List.Subset.refl _

/-- A script that is nothing but a method without a body. -/
def methodScript (name : String) : Script where
  path := "a.php"
  source := .ofBytes name.toUTF8
  root := .mk .methodDeclaration none 0 1 1 name [.mk .name (some .name) 0 1 1 name []]
  names := default

end PluginAudit.Php
