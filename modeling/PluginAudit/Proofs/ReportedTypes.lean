import PluginAudit.Php.Detect
import PluginAudit.Proofs.Reports

namespace PluginAudit.Php.Detect

open Context

def variableCallTypes : List String :=
  ["backdoor_variable_function_call", "backdoor_variable_function_call_superglobal",
    "backdoor_variable_function_call_chain_forbidden"]

def concatCallTypes : List String :=
  ["backdoor_concat_function_call", "backdoor_concat_function_call_unknown",
    "backdoor_concat_function_call_always_forbidden", "backdoor_concat_function_call_unsupported",
    "backdoor_concat_function_call_chain_forbidden"]

def callbackTypes : List String :=
  ["callback_always_forbidden", "always_forbidden_callback_to_forbidden_function",
    "callback_unsupported", "callback_user_defined_forbidden_chain",
    "closure_calls_always_forbidden", "closure_calls_unsupported", "closure_calls_forbidden_chain",
    "callback_closure_forbidden"]

def reflectionTypes : List String :=
  ["always_forbidden_reflection", "reflection_usage"]

def classReferenceTypes : List String :=
  "forbidden_namespace_reference" :: reflectionTypes

def dynamicMethodTypes : List String :=
  ["backdoor_dynamic_method_call_complex", "backdoor_dynamic_method_call_unresolved",
    "backdoor_dynamic_method_call_superglobal", "backdoor_dynamic_method_call_forbidden",
    "backdoor_dynamic_method_call_chain_forbidden"]

def instantiationTypes : List String :=
  classReferenceTypes ++
    ["anonymous_class_leak", "backdoor_dynamic_class_instantiation_complex",
      "backdoor_dynamic_class_instantiation_superglobal",
      "backdoor_dynamic_class_instantiation_unresolved",
      "backdoor_dynamic_class_instantiation_forbidden"]

def inclusionTypes : List String :=
  ["always_forbidden_wrapper_stream_include", "include_forbidden_wrapper",
    "always_forbidden_dynamic_include", "include_dynamic_path_superglobal", "include_dynamic_path"]

def dynamicPropertyTypes : List String :=
  ["dynamic_property_access_superglobal", "dynamic_property_access",
    "dynamic_property_access_chain_forbidden"]

/-- The types of what a `return` gives away. -/
def returnTypes : List String :=
  ["return_forbidden_function", "return_forbidden_class", "return_indirect_forbidden_chain",
    "return_indirect_forbidden_method_chain"]

def classDeclarationTypes : List String :=
  "forbidden_namespace_extends" :: "forbidden_namespace_implements" :: reflectionTypes

def namespaceImportTypes : List String :=
  ["forbidden_namespace_import", "forbidden_namespace_import_function",
    "forbidden_namespace_import_const"]

/-- The types of all violations that are not about a function that is called by its name, detector
by detector. -/
def otherTypes : List (List String) :=
  [variableCallTypes, concatCallTypes, callbackTypes, ["always_forbidden_obfuscated_eval"],
    ["always_forbidden_wrapper_stream"], ["dynamic_code_from_superglobal"], dynamicMethodTypes,
    ["config_blocked_method"], classReferenceTypes, instantiationTypes, reflectionTypes,
    classDeclarationTypes, ["forbidden_namespace_trait_use"], namespaceImportTypes,
    ["forbidden_namespace_string_reference"],
    ["always_forbidden_magic_method", "magic_method_defined"], inclusionTypes,
    ["variable_variable_usage"], dynamicPropertyTypes, ["dynamic_static_property_access"],
    ["global_or_session_leak", "anonymous_function_leak"], ["static_variable_leak"], returnTypes]

/-- A violation of one of the given types that is plain and says what the issue is. -/
def IsOf (types : List String) (v : Violation) : Prop :=
  v.type ∈ types ∧ v.Plain ∧ v.issue ≠ ""

@[simp] theorem isOf_violation {types : List String} {c : Context} {type : String}
    {severity : Severity} {n : Node} {issue : String} {data : Table Value} :
    IsOf types (c.violation type severity n issue data) ↔
      type ∈ types ∧ (∀ e ∈ data, e.1 ∉ Violation.fields) ∧ issue ≠ "" :=
  Iff.rfl

/-- All violations are of the given types, and plain. -/
def ReportsOnly (types : List String) (vs : List Violation) : Prop :=
  ∀ v ∈ vs, IsOf types v

namespace ReportsOnly

variable {types types' : List String} {xs ys : List Violation}

theorem nil (types : List String) : ReportsOnly types [] := by
  intro v hv
  cases hv

theorem cons {v : Violation} (h : IsOf types v) (hxs : ReportsOnly types xs) :
    ReportsOnly types (v :: xs) :=
  List.forall_mem_cons.2 ⟨h, hxs⟩

theorem single {v : Violation} (h : IsOf types v) : ReportsOnly types [v] :=
  .cons h (.nil _)

theorem append (hxs : ReportsOnly types xs) (hys : ReportsOnly types ys) :
    ReportsOnly types (xs ++ ys) :=
  List.forall_mem_append.2 ⟨hxs, hys⟩

theorem flatMap {α : Type} {f : α → List Violation} {items : List α}
    (h : ∀ x ∈ items, ReportsOnly types (f x)) : ReportsOnly types (items.flatMap f) := by
  intro v hv
  obtain ⟨x, hx, hv⟩ := List.mem_flatMap.1 hv
  exact h x hx v hv

theorem ite {b : Prop} [Decidable b] (hxs : ReportsOnly types xs) (hys : ReportsOnly types ys) :
    ReportsOnly types (if b then xs else ys) := by
  split
  · exact hxs
  · exact hys

theorem mono (h : ReportsOnly types xs) (hsub : types ⊆ types') : ReportsOnly types' xs :=
  fun v hv => ⟨hsub (h v hv).1, (h v hv).2⟩

end ReportsOnly

/-- Whatever its context and its node, a detector reports violations of the given types only. -/
def OnlyTypes (types : List String) (d : Detector) : Prop :=
  ∀ c s, ReportsOnly types (d c s)

theorem reportsOnly_elementCall (c : Context) (s : Site) (fn : Node) :
    ReportsOnly variableCallTypes (elementCall c s fn) := by
  unfold elementCall
  split <;> exact .single (by simp [variableCallTypes])

theorem apart_resolved (var : String) (resolved : Option String) :
    ∀ e ∈ ("var", Value.text var) ::
      (resolved.map fun r => ("resolved_function", Value.text r)).toList,
      e.1 ∉ Violation.fields := by
  cases resolved <;> simp

theorem onlyTypes_variableCall : OnlyTypes variableCallTypes variableCall := by
  intro c s
  unfold variableCall
  split
  case h_1 => exact .nil _
  case h_2 fn hfn =>
    refine .ite (reportsOnly_elementCall c s fn) ?_
    split
    case h_1 => exact .nil _
    case h_2 var hvar =>
      refine .ite (.single ?_) (.cons ?call (.ite (.single ?chain) (.nil _)))
      case call => exact isOf_violation.2 ⟨by decide, apart_resolved var _, by simp⟩
      case chain => exact isOf_violation.2 ⟨by decide, apart_resolved var _, by simp⟩
      simp [variableCallTypes]

theorem onlyTypes_concatCall : OnlyTypes concatCallTypes concatCall := by
  intro c s
  unfold concatCall
  split
  case h_1 => exact .nil _
  case h_2 fn hfn =>
    refine .ite (.nil _) (.ite (.single ?_) ?_)
    · simp [concatCallTypes]
    · split <;> exact .single (by simp [concatCallTypes])

theorem reportsOnly_closureCalls (c : Context) (closure : Site) :
    ReportsOnly callbackTypes (closureCalls c closure) := by
  unfold closureCalls
  split
  case h_1 => exact .nil _
  case h_2 body hbody =>
    refine .flatMap fun s _ => .ite (.nil _) ?_
    split
    case h_1 => exact .nil _
    case h_2 f hf =>
      split
      case h_4 => exact .nil _
      all_goals exact .single (by simp [callbackTypes, function])

theorem reportsOnly_namedCallback (c : Context) (s : Site) (name literal : String) :
    ReportsOnly callbackTypes (namedCallback c s name literal) := by
  refine .ite (.nil _) ?_
  split
  case h_1 =>
    refine .append (.single ?_) (.ite (.single ?_) (.nil _))
    all_goals simp [callbackTypes]
  case h_4 => exact .nil _
  all_goals exact .single (by simp [callbackTypes])

theorem onlyTypes_callback : OnlyTypes callbackTypes callback := by
  intro c s
  unfold callback
  split
  case h_1 => exact .nil _
  case h_2 f hf =>
    refine .ite (.nil _) (.flatMap fun arg _ => ?_)
    dsimp only
    split
    case h_1 literal hliteral => exact reportsOnly_namedCallback c s f.name literal
    case h_2 =>
      refine .ite (.ite (.nil _) (.append (reportsOnly_closureCalls c _) (.single ?_))) (.nil _)
      simp [callbackTypes, function]

theorem onlyTypes_obfuscatedEval :
    OnlyTypes ["always_forbidden_obfuscated_eval"] obfuscatedEval := by
  intro c s
  unfold obfuscatedEval
  split
  case h_1 => exact .nil _
  case h_2 => exact .ite (.nil _) (.ite (.single (by simp)) (.nil _))

theorem onlyTypes_wrapperStream : OnlyTypes ["always_forbidden_wrapper_stream"] wrapperStream := by
  intro c s
  unfold wrapperStream
  split
  case h_1 => exact .nil _
  case h_2 =>
    refine .ite (.nil _) ?_
    split
    case h_1 => exact .ite (.nil _) (.single (by simp))
    case h_2 => exact .nil _

theorem onlyTypes_requestCode : OnlyTypes ["dynamic_code_from_superglobal"] requestCode := by
  intro c s
  unfold requestCode
  split
  case h_1 => exact .nil _
  case h_2 =>
    refine .ite (.nil _) ?_
    split
    case h_1 => exact .single (by simp)
    case h_2 => exact .nil _

theorem reportsOnly_reflectionRows (c : Context) (n : Node) (className kind : String) :
    ReportsOnly reflectionTypes (reflectionRows c n className kind) := by
  refine .cons ?_ (.single ?_)
  all_goals simp [reflectionTypes]

theorem reportsOnly_classReferenceRows (c : Context) (n name : Node) (kind : String) :
    ReportsOnly classReferenceTypes (classReferenceRows c n name kind) := by
  refine .ite (.nil _) (.append ?_ (.ite ?_ (.nil _)))
  · split
    · exact .single (by simp [classReferenceTypes])
    · exact .nil _
  · exact (reportsOnly_reflectionRows c n _ kind).mono (List.subset_cons_self _ _)

theorem onlyTypes_dynamicMethod : OnlyTypes dynamicMethodTypes dynamicMethod := by
  intro c s
  have hreport {suffix : String} {severity : Severity} {issue : String} {data : Table Value}
      (h : IsOf dynamicMethodTypes
        (c.violation ("backdoor_dynamic_method_call_" ++ suffix) severity s.node issue data)) :
      ReportsOnly dynamicMethodTypes
        [c.violation ("backdoor_dynamic_method_call_" ++ suffix) severity s.node issue data] :=
    .single h
  unfold dynamicMethod
  dsimp only
  split
  case h_1 => exact .nil _
  case h_2 name hname =>
    refine .ite (.nil _) ?_
    split
    case h_1 => exact hreport (by simp [dynamicMethodTypes])
    case h_2 var hvar =>
      split
      case h_1 => exact hreport (by simp [dynamicMethodTypes])
      case h_2 value hvalue =>
        refine .ite (hreport ?_) (.ite (hreport ?_) (.ite (hreport ?_) (.ite (hreport ?_) (.nil _))))
        all_goals simp [dynamicMethodTypes]

theorem onlyTypes_blockedMethod : OnlyTypes ["config_blocked_method"] blockedMethod := by
  intro c s
  unfold blockedMethod
  split
  case h_1 => exact .nil _
  case h_2 =>
    refine .ite (.nil _) (.ite (.nil _) ?_)
    split
    case h_1 => exact .nil _
    case h_2 => exact .ite (.nil _) (.single (by simp))

theorem onlyTypes_staticReference : OnlyTypes classReferenceTypes staticReference := by
  intro c s
  unfold staticReference
  split
  case h_1 => exact .ite (reportsOnly_classReferenceRows c _ _ _) (.nil _)
  case h_2 => exact .nil _

theorem onlyTypes_classConstant : OnlyTypes classReferenceTypes classConstant := by
  intro c s
  unfold classConstant
  split
  case h_1 => exact .ite (reportsOnly_classReferenceRows c _ _ _) (.nil _)
  case h_2 => exact .nil _

theorem onlyTypes_instanceTest : OnlyTypes classReferenceTypes instanceTest := by
  intro c s
  refine .ite (.nil _) ?_
  split
  case h_1 => exact .ite (reportsOnly_classReferenceRows c _ _ _) (.nil _)
  case h_2 => exact .nil _

theorem onlyTypes_instantiation : OnlyTypes instantiationTypes instantiation := by
  intro c s
  unfold instantiation
  dsimp only
  refine .ite (.single (isOf_violation.2 ⟨by simp [instantiationTypes], by simp, ?_⟩)) ?_
  · split <;> simp
  split
  case h_1 => exact .nil _
  case h_2 cls hcls =>
    refine .ite ((reportsOnly_classReferenceRows c _ _ _).mono (List.subset_append_left _ _)) ?_
    split
    case h_1 => exact .single (by simp [instantiationTypes])
    case h_2 var hvar =>
      refine .ite (.single (by simp [instantiationTypes])) ?_
      split
      case h_1 => exact .single (by simp [instantiationTypes])
      case h_2 => exact .ite (.single (by simp [instantiationTypes])) (.nil _)

theorem onlyTypes_parameterType : OnlyTypes reflectionTypes parameterType := by
  intro c s
  unfold parameterType
  split
  case h_1 => exact .nil _
  case h_2 => exact .flatMap fun name _ => .ite (reportsOnly_reflectionRows c _ _ _) (.nil _)

theorem reportsOnly_clauseRows (c : Context) (clause : Node) (type kind : String) :
    ReportsOnly (type :: reflectionTypes) (clauseRows c clause type kind) := by
  refine .flatMap fun name _ => .append ?_ (.ite ?_ (.nil _))
  · split
    · exact .single (by simp)
    · exact .nil _
  · exact (reportsOnly_reflectionRows c _ _ _).mono (List.subset_cons_self _ _)

theorem onlyTypes_classDeclaration : OnlyTypes classDeclarationTypes classDeclaration := by
  intro c s
  refine .flatMap fun child _ => ?_
  split
  case h_1 => exact (reportsOnly_clauseRows c _ _ _).mono (by simp [classDeclarationTypes])
  case h_2 => exact (reportsOnly_clauseRows c _ _ _).mono (by simp [classDeclarationTypes])
  case h_3 => exact .nil _

theorem onlyTypes_traitUse : OnlyTypes ["forbidden_namespace_trait_use"] traitUse := by
  intro c s
  refine .flatMap fun name _ => ?_
  dsimp only
  split
  case h_1 => exact .single (by simp)
  case h_2 => exact .nil _

theorem onlyTypes_namespaceImport : OnlyTypes namespaceImportTypes namespaceImport := by
  intro c s
  have himport (k : ImportKind) :
      "forbidden_namespace_import" ++ importSuffix k ∈ namespaceImportTypes := by
    cases k <;> simp [importSuffix, namespaceImportTypes]
  refine .flatMap fun i _ => ?_
  split
  case h_1 => exact .single (isOf_violation.2 ⟨himport i.kind, by simp, by simp⟩)
  case h_2 => exact .nil _

theorem onlyTypes_namespaceString :
    OnlyTypes ["forbidden_namespace_string_reference"] namespaceString := by
  intro c s
  unfold namespaceString
  split
  case h_1 => exact .nil _
  case h_2 =>
    refine .ite (.nil _) ?_
    split
    case h_1 => exact .single (by simp)
    case h_2 => exact .nil _

theorem onlyTypes_magicMethod :
    OnlyTypes ["always_forbidden_magic_method", "magic_method_defined"] magicMethod := by
  intro c s
  refine .ite (.nil _) (.cons ?_ (.single ?_))
  all_goals simp

theorem onlyTypes_inclusion : OnlyTypes inclusionTypes inclusion := by
  intro c s
  unfold inclusion
  split
  case h_1 => exact .nil _
  case h_2 target htarget =>
    split
    case h_1 =>
      split
      case h_1 =>
        refine .ite (.nil _) (.cons ?_ (.single ?_))
        all_goals simp [inclusionTypes]
      case h_2 => exact .nil _
    case h_2 =>
      refine .ite (.nil _) (.cons ?_ (.single ?_))
      · simp [inclusionTypes]
      · split <;> simp [inclusionTypes]

theorem onlyTypes_variableVariable : OnlyTypes ["variable_variable_usage"] variableVariable :=
  fun _ _ => .ite (.nil _) (.single (by simp))

theorem onlyTypes_dynamicProperty : OnlyTypes dynamicPropertyTypes dynamicProperty := by
  intro c s
  unfold dynamicProperty
  split
  case h_1 => exact .nil _
  case h_2 var hvar =>
    refine .ite (.single ?_) (.cons ?_ ?_)
    · simp [dynamicPropertyTypes]
    · simp [dynamicPropertyTypes]
    · split
      · exact .ite (.single (by simp [dynamicPropertyTypes])) (.nil _)
      · exact .nil _

theorem onlyTypes_dynamicStaticProperty :
    OnlyTypes ["dynamic_static_property_access"] dynamicStaticProperty :=
  fun _ _ => .ite (.single (by simp)) (.nil _)

theorem onlyTypes_assignmentLeak :
    OnlyTypes ["global_or_session_leak", "anonymous_function_leak"] assignmentLeak := by
  intro c s
  unfold assignmentLeak
  split
  case h_1 left right hleft hright =>
    refine .append (.ite (.nil _) ?_)
      (.ite (.nil _) (.single (isOf_violation.2 ⟨by simp, by simp, ?_⟩)))
    · split
      case h_1 => exact .nil _
      case h_2 => exact .ite (.single (by simp)) (.nil _)
    · split <;> simp
  case h_2 => exact .nil _

theorem onlyTypes_staticVariable : OnlyTypes ["static_variable_leak"] staticVariable := by
  intro c s
  refine .flatMap fun decl _ => ?_
  split
  case h_1 => exact .nil _
  case h_2 => exact .ite (.single (by simp)) (.nil _)

theorem reportsOnly_returnedMethod (c : Context) (s expr : Site) :
    ReportsOnly returnTypes (returnedMethod c s expr) := by
  unfold returnedMethod
  split
  case h_1 => exact .nil _
  case h_2 => exact .ite (.nil _) (.ite (.single (by simp [returnTypes])) (.nil _))

theorem onlyTypes_returned : OnlyTypes returnTypes returned := by
  intro c s
  unfold returned
  split
  case h_1 => exact .nil _
  case h_2 e he =>
    dsimp only
    split
    case h_1 => exact .ite (.single (by simp [returnTypes])) (.nil _)
    case h_2 =>
      split
      case h_1 =>
        split
        case h_1 => exact .nil _
        case h_2 => exact .ite (.single (by simp [returnTypes])) (.nil _)
      case h_2 =>
        split
        case h_1 => exact .nil _
        case h_2 =>
          refine .ite (.single ?_) (.ite (.single ?_) (.nil _))
          all_goals simp [returnTypes, function]
      case h_5 => exact .nil _
      all_goals exact reportsOnly_returnedMethod c s _

/-- A call has violations of its own types, besides those about the function that it names. -/
theorem exists_onlyTypes_of_call {d : Detector} (h : d ∈ callDetectors.tail) :
    ∃ types ∈ otherTypes, OnlyTypes types d := by
  simp only [callDetectors, List.tail_cons, List.mem_cons, List.not_mem_nil, or_false] at h
  obtain rfl | rfl | rfl | rfl | rfl | rfl := h
  · exact ⟨_, by simp [otherTypes], onlyTypes_variableCall⟩
  · exact ⟨_, by simp [otherTypes], onlyTypes_concatCall⟩
  · exact ⟨_, by simp [otherTypes], onlyTypes_callback⟩
  · exact ⟨_, by simp [otherTypes], onlyTypes_obfuscatedEval⟩
  · exact ⟨_, by simp [otherTypes], onlyTypes_wrapperStream⟩
  · exact ⟨_, by simp [otherTypes], onlyTypes_requestCode⟩

/-- The detectors for every other kind of node have their own types. -/
theorem exists_onlyTypes_of_mem {d : Detector} {k : Kind} (hk : k ≠ .functionCallExpression)
    (h : d ∈ detectors k) : ∃ types ∈ otherTypes, OnlyTypes types d := by
  have group {d : Detector} {types : List String} (hd : OnlyTypes types d)
      (htypes : types ∈ otherTypes := by simp [otherTypes]) :
      ∃ types ∈ otherTypes, OnlyTypes types d :=
    ⟨types, htypes, hd⟩
  unfold detectors at h
  split at h
  case h_1 => exact absurd rfl hk
  all_goals simp only [List.mem_cons, List.not_mem_nil, or_false] at h
  case h_2 | h_3 =>
    obtain rfl | rfl := h
    · exact group onlyTypes_dynamicMethod
    · exact group onlyTypes_blockedMethod
  case h_4 =>
    obtain rfl | rfl | rfl := h
    · exact group onlyTypes_staticReference
    · exact group onlyTypes_dynamicMethod
    · exact group onlyTypes_blockedMethod
  case h_5 => exact h ▸ group onlyTypes_instantiation
  case h_6 => exact h ▸ group onlyTypes_classConstant
  case h_7 => exact h ▸ group onlyTypes_instanceTest
  case h_8 | h_9 | h_10 => exact h ▸ group onlyTypes_parameterType
  case h_11 => exact h ▸ group onlyTypes_classDeclaration
  case h_12 => exact h ▸ group onlyTypes_traitUse
  case h_13 => exact h ▸ group onlyTypes_namespaceImport
  case h_14 | h_15 => exact h ▸ group onlyTypes_namespaceString
  case h_16 => exact h ▸ group onlyTypes_magicMethod
  case h_17 | h_18 | h_19 | h_20 => exact h ▸ group onlyTypes_inclusion
  case h_21 => exact h ▸ group onlyTypes_variableVariable
  case h_22 | h_23 => exact h ▸ group onlyTypes_dynamicProperty
  case h_24 => exact h ▸ group onlyTypes_dynamicStaticProperty
  case h_25 | h_26 => exact h ▸ group onlyTypes_assignmentLeak
  case h_27 => exact h ▸ group onlyTypes_staticVariable
  case h_28 => exact h ▸ group onlyTypes_returned

end PluginAudit.Php.Detect
