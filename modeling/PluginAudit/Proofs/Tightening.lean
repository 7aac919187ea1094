import PluginAudit.Php.Detect.Context
import PluginAudit.Proofs.Built
import PluginAudit.Proofs.Casing
import PluginAudit.Proofs.ReturnChains

namespace PluginAudit

namespace Policy

/-- The policy `q` denies all that `p` denies, and allows the same exceptions. -/
structure Tightens (p q : Policy) : Prop where
  forbiddenFunctions : p.forbiddenFunctions ⊆ q.forbiddenFunctions
  unsupportedFunctions : p.unsupportedFunctions ⊆ q.unsupportedFunctions
  dangerousFunctions : p.dangerousFunctions ⊆ q.dangerousFunctions
  riskyFunctions : p.riskyFunctions ⊆ q.riskyFunctions
  obfuscators : p.obfuscators ⊆ q.obfuscators
  callbackFunctions : p.callbackFunctions ⊆ q.callbackFunctions
  magicMethods : p.magicMethods ⊆ q.magicMethods
  forbiddenNamespaces : p.forbiddenNamespaces ⊆ q.forbiddenNamespaces
  wrappers : p.wrappers ⊆ q.wrappers
  reflectionPrefix : q.reflectionPrefix = p.reflectionPrefix
  allowedNamespaces : q.allowedNamespaces = p.allowedNamespaces
  allowedClassMethods : q.allowedClassMethods = p.allowedClassMethods

/-- An empty wrapper, which counts as none, hides no other. -/
def ProperWrappers (p : Policy) : Prop :=
  "" ∈ p.wrappers → p.wrappers = [""]

theorem empty_not_mem_ofItems (items : List Value) : "" ∉ textList.ofItems items := by
  intro h
  obtain ⟨v, -, hv⟩ := List.mem_filterMap.1 h
  have hstrip : Text.strip "" = "" := rfl
  split at hv
  case h_1 => cases hv
  case h_2 =>
    split at hv
    case isTrue => cases hv
    case isFalse hblank =>
      rw [Option.some.inj hv, hstrip] at hblank
      exact hblank rfl

theorem eq_singleton_of_empty_mem {v : Option Value} {names : List String}
    (h : textList v = .ok names) (hempty : "" ∈ names) : names = [""] := by
  unfold textList at h
  split at h
  case h_3 =>
    cases h
    rw [List.mem_singleton.1 hempty]
  all_goals cases h
  case h_1 | h_2 => cases hempty
  case h_4 | h_5 => exact absurd hempty (empty_not_mem_ofItems _)

/-- Blank items of a list are passed over, so an empty wrapper can only stand alone. -/
theorem properWrappers_of_build {data : List (Value × Value)} {p : Policy}
    (h : build data = .ok p) : p.ProperWrappers := by
  have hp := (built_of_build h).wrappers
  intro hempty
  rw [hp, mem_without, Text.mem_distinct, List.mem_map] at hempty
  obtain ⟨⟨s, hs, hlower⟩, hlifted⟩ := hempty
  cases Text.eq_empty_of_lower hlower
  have halone := eq_singleton_of_empty_mem (eq_ok_of_mem_orNil hs) hs
  rw [hp, textsOf, halone, List.map_singleton, hlower]
  simpa [without, Text.distinct] using hlifted

theorem contains_mono {xs ys : List String} (h : xs ⊆ ys) {s : String}
    (hs : xs.contains s = true) : ys.contains s = true :=
  List.contains_iff_mem.2 (h (List.contains_iff_mem.1 hs))

namespace Tightens

variable {p q : Policy} (h : Tightens p q) {name : String}

include h

theorem isForbiddenFunction (hp : p.isForbiddenFunction name = true) :
    q.isForbiddenFunction name = true :=
  contains_mono h.forbiddenFunctions hp

theorem isUnsupportedFunction (hp : p.isUnsupportedFunction name = true) :
    q.isUnsupportedFunction name = true :=
  contains_mono h.unsupportedFunctions hp

theorem isForbiddenName (hp : p.isForbiddenName name = true) : q.isForbiddenName name = true := by
  rw [Policy.isForbiddenName, Bool.or_eq_true] at hp ⊢
  exact hp.imp h.isForbiddenFunction h.isUnsupportedFunction

theorem isObfuscator (hp : p.isObfuscator name = true) : q.isObfuscator name = true :=
  contains_mono h.obfuscators hp

theorem isCallbackFunction (hp : p.isCallbackFunction name = true) :
    q.isCallbackFunction name = true :=
  contains_mono h.callbackFunctions hp

theorem isForbiddenMagicMethod (hp : p.isForbiddenMagicMethod name = true) :
    q.isForbiddenMagicMethod name = true :=
  contains_mono h.magicMethods hp

theorem isForbiddenNamespace (hp : p.isForbiddenNamespace name = true) :
    q.isForbiddenNamespace name = true := by
  unfold Policy.isForbiddenNamespace forbiddenNamespaceFor? at hp ⊢
  dsimp only at hp ⊢
  split at hp
  case isTrue => cases hp
  case isFalse hkey =>
    rw [if_neg hkey]
    obtain ⟨ns, hns, hlies⟩ := List.find?_isSome.1 hp
    exact List.find?_isSome.2 ⟨ns, h.forbiddenNamespaces hns, hlies⟩

theorem isForbiddenReflection : q.isForbiddenReflection name = p.isForbiddenReflection name := by
  rw [Policy.isForbiddenReflection, Policy.isForbiddenReflection, h.reflectionPrefix,
    h.allowedNamespaces]

theorem isForbiddenClass (hp : p.isForbiddenClass name = true) :
    q.isForbiddenClass name = true := by
  rw [Policy.isForbiddenClass, Bool.or_eq_true] at hp ⊢
  rw [h.isForbiddenReflection]
  exact hp.imp_left h.isForbiddenNamespace

/-- A path that starts with a forbidden wrapper of `p` starts with one of `q`, maybe another. -/
theorem forbiddenWrapperFor? (hq : q.ProperWrappers) {w : String}
    (hp : p.forbiddenWrapperFor? name = some w) (hw : w ≠ "") :
    ∃ w', q.forbiddenWrapperFor? name = some w' ∧ w' ≠ "" := by
  have hmem : w ∈ q.wrappers := h.wrappers (List.mem_of_find?_eq_some hp)
  have hsome : (q.forbiddenWrapperFor? name).isSome = true :=
    List.find?_isSome.2 ⟨w, hmem, List.find?_some hp⟩
  obtain ⟨w', hw'⟩ := Option.isSome_iff_exists.1 hsome
  refine ⟨w', hw', ?_⟩
  rintro rfl
  have halone := hq (List.mem_of_find?_eq_some hw')
  rw [halone] at hmem
  exact hw (List.mem_singleton.1 hmem)

end Tightens

end Policy

namespace Php

namespace CallGraph

variable {g : CallGraph} {q : Policy} (h : g.policy.Tightens q) {n : Int}

include h

theorem IsForbidden.tighten {d : Definition} {e : Node} (he : g.IsForbidden d e) :
    (g.withSettings q n).IsForbidden d e := by
  cases he with
  | literal s spells forbidden => exact .literal s spells (h.isForbiddenName forbidden)
  | creation cls kind creates named forbidden =>
    exact .creation cls kind creates named (h.isForbiddenClass forbidden)
  | call fn kind calls named forbidden =>
    exact .call fn kind calls named (h.isForbiddenName forbidden)

omit h in
theorem IsCallOf.withSettings {d : Definition} {e : Node} {t : Target} (he : g.IsCallOf d e t) :
    (g.withSettings q n).IsCallOf d e t := by
  cases he with
  | function fn name kind calls named resolves => exact .function fn name kind calls named resolves
  | member object method kind on this calls named inside =>
    exact .member object method kind on this calls named inside
  | static method className kind calls named scope known =>
    exact .static method className kind calls named scope known

omit h in
theorem searchMethod_withSettings {method : String} {seen : List String} {fuel : Nat}
    {pending : List String} : (g.withSettings q n).searchMethod method seen fuel pending =
      g.searchMethod method seen fuel pending := by
  induction fuel generalizing seen pending with
  | zero => rfl
  | succ fuel ih =>
    cases pending with
    | nil => rfl
    | cons key pending =>
      simp only [searchMethod, ih]
      rfl

omit h in
theorem definition?_withSettings (t : Target) :
    (g.withSettings q n).definition? t = g.definition? t := by
  cases t with
  | function name => rfl
  | method className name => exact searchMethod_withSettings

/-- A search that goes the same way, or stops earlier at something forbidden. -/
theorem reaches_tighten {steps : Nat} {visited : List String} {t : Target}
    (hr : g.reaches steps visited t = true) :
    (g.withSettings q n).reaches steps visited t = true := by
  induction steps generalizing visited t with
  | zero => cases hr
  | succ steps ih =>
    unfold reaches at hr ⊢
    rw [definition?_withSettings]
    split at hr
    case isTrue => cases hr
    case isFalse hvisited =>
      rw [if_neg hvisited]
      split at hr
      case h_1 => cases hr
      case h_2 d hd =>
        obtain ⟨e, he, hreturn⟩ := List.any_eq_true.1 hr
        refine List.any_eq_true.2 ⟨e, he, ?_⟩
        obtain ⟨-, hforbidden⟩ | hharmless | ⟨next, hfollow, hcall⟩ := outcome_cases g d e
        · rw [outcome_of_isForbidden (hforbidden.tighten h)]
        · rw [hharmless] at hreturn
          cases hreturn
        · rw [hfollow] at hreturn
          obtain hnext | hforbidden := outcome_of_isCallOf (hcall.withSettings (q := q) (n := n))
          · rw [hnext]
            exact ih hreturn
          · rw [hforbidden]

theorem chainsToForbidden_tighten {t : Target} (hr : g.chainsToForbidden t = true) :
    (g.withSettings q g.maxDepth).chainsToForbidden t = true :=
  reaches_tighten h hr

end CallGraph

namespace Detect.Context

/-- The context under another policy, all else being the same. -/
def under (c : Context) (q : Policy) : Context :=
  { c with policy := q, graph := c.graph.withSettings q c.graph.maxDepth }

-- Names are resolved, and classes found, without asking the policy.
section Frame

variable (c : Context) (q : Policy)

@[simp] theorem under_facts : (c.under q).facts = c.facts :=
  rfl

@[simp] theorem under_called? (n : Node) : (c.under q).called? n = c.called? n :=
  rfl

@[simp] theorem under_requestSource? (n : Node) :
    (c.under q).requestSource? n = c.requestSource? n :=
  rfl

@[simp] theorem under_scopeClass (scope : Option Node) (s : Site) :
    (c.under q).scopeClass scope s = c.scopeClass scope s :=
  rfl

@[simp] theorem under_receiverClass (object : Option Node) (s : Site) :
    (c.under q).receiverClass object s = c.receiverClass object s :=
  rfl

@[simp] theorem under_resolveFunction (candidates : List String) :
    (c.under q).graph.resolveFunction candidates = c.graph.resolveFunction candidates :=
  rfl

end Frame

/-- The policy of the context, by which the call graph goes too, is tightened by `q`. -/
structure TightenedBy (c : Context) (q : Policy) : Prop where
  policy : c.policy.Tightens q
  graph : c.graph.policy = c.policy
  wrappers : q.ProperWrappers

/-- There is a verdict on a name if it is forbidden, unsupported, or leads to what is. -/
theorem isSome_verdict? (c : Context) (name : String) (candidates : List String) :
    (c.verdict? name candidates).isSome =
      (c.policy.isForbiddenName name || c.chainsToForbidden candidates) := by
  unfold verdict? Policy.isForbiddenName
  cases c.policy.isForbiddenFunction name <;> cases c.policy.isUnsupportedFunction name <;>
    cases c.chainsToForbidden candidates <;> rfl

namespace TightenedBy

variable {c : Context} {q : Policy} (h : c.TightenedBy q)

include h

theorem chainsToForbidden {candidates : List String}
    (hc : c.chainsToForbidden candidates = true) :
    (c.under q).chainsToForbidden candidates = true := by
  unfold Context.chainsToForbidden at hc ⊢
  rw [under_resolveFunction]
  split at hc
  case h_1 => exact CallGraph.chainsToForbidden_tighten (h.graph ▸ h.policy) hc
  case h_2 => cases hc

theorem methodChains {cls method : String} (hc : c.methodChains cls method = true) :
    (c.under q).methodChains cls method = true :=
  CallGraph.chainsToForbidden_tighten (h.graph ▸ h.policy) hc

theorem verdict? {name : String} {candidates : List String}
    (hc : (c.verdict? name candidates).isSome = true) :
    ((c.under q).verdict? name candidates).isSome = true := by
  rw [isSome_verdict?, Bool.or_eq_true] at hc ⊢
  exact hc.imp h.policy.isForbiddenName h.chainsToForbidden

theorem callVerdict? {s : Site} (hc : (c.callVerdict? s).isSome = true) :
    ((c.under q).callVerdict? s).isSome = true := by
  have hmethod (cls : String) (m : Node)
      (hm : (cls != "" && m.kind == Kind.name && c.methodChains cls m.text) = true) :
      (cls != "" && m.kind == Kind.name && (c.under q).methodChains cls m.text) = true := by
    rw [Bool.and_eq_true] at hm ⊢
    exact hm.imp_right h.methodChains
  unfold Context.callVerdict? at hc ⊢
  simp only [under_called?, under_receiverClass, under_scopeClass] at hc ⊢
  split at hc
  case h_1 =>
    obtain ⟨verdict, hv⟩ := Option.isSome_iff_exists.1 hc
    obtain ⟨f, hf, hv⟩ := Option.bind_eq_some_iff.1 hv
    rw [hf]
    exact h.verdict? (Option.isSome_iff_exists.2 ⟨verdict, hv⟩)
  case h_5 => cases hc
  all_goals
    split at hc
    case h_2 => cases hc
    case h_1 m hm =>
      split at hc
      case isTrue hchains => simp only [hmethod _ m hchains, if_true]; rfl
      case isFalse => cases hc

theorem bodyIsDangerous {s : Site} (hc : c.bodyIsDangerous s = true) :
    (c.under q).bodyIsDangerous s = true := by
  obtain ⟨site, hsite, hverdict⟩ := List.any_eq_true.1 hc
  exact List.any_eq_true.2 ⟨site, hsite, h.callVerdict? hverdict⟩

theorem bodyOfIsDangerous {s : Site} (hc : c.bodyOfIsDangerous s = true) :
    (c.under q).bodyOfIsDangerous s = true := by
  unfold Context.bodyOfIsDangerous at hc ⊢
  split at hc
  case h_1 => exact h.bodyIsDangerous hc
  case h_2 => cases hc

theorem holdsDanger {depth : Nat} {s : Site} (hc : c.holdsDanger depth s = true) :
    (c.under q).holdsDanger depth s = true := by
  induction depth generalizing s with
  | zero => cases hc
  | succ depth ih =>
    unfold Context.holdsDanger at hc ⊢
    dsimp only at hc ⊢
    split at hc
    case h_1 => exact h.policy.isForbiddenFunction hc
    case h_2 =>
      split at hc
      case h_1 =>
        split at hc
        case isTrue hanonymous =>
          rw [if_pos hanonymous]
          exact h.bodyIsDangerous hc
        case isFalse hanonymous =>
          rw [if_neg hanonymous]
          split at hc
          case h_1 =>
            rw [Bool.and_eq_true] at hc ⊢
            exact hc.imp_right h.policy.isForbiddenClass
          case h_2 => cases hc
      case h_2 =>
        split at hc
        case h_1 =>
          split at hc
          case isTrue hname =>
            rw [if_pos hname]
            exact h.callVerdict? hc
          case isFalse hname => rw [if_neg hname]
        case h_2 => cases hc
      case h_3 => exact h.bodyOfIsDangerous hc
      case h_4 => exact h.bodyOfIsDangerous hc
      case h_5 =>
        obtain ⟨element, helement, hheld⟩ := List.any_eq_true.1 hc
        exact List.any_eq_true.2 ⟨element, helement, ih hheld⟩
      case h_6 =>
        rw [under_facts]
        split at hc
        case h_1 held hheld => exact ih hc
        case h_2 => cases hc

end TightenedBy

end Detect.Context

end Php

end PluginAudit
