import PluginAudit.Proofs.AliasedFacts

namespace PluginAudit

namespace Violation

/-- What a violation tells, but for its place, its wording and the source of an expression. -/
def gist (v : Violation) : String × Severity × Table Value :=
  (v.type, v.severity, v.data.filter fun e => e.1 != "expression")

def Agrees (v v' : Violation) : Prop :=
  v.gist = v'.gist

end Violation

namespace Php.Detect

open Context

variable {a : Alias} {c c' : Context} {s s' : Site} {n n' : Node}

namespace Context.Alike

section Readers

variable (hc : c.Alike a c') (ha : a.Proper)

include hc

theorem currentClass (hs : s.Alike a s') : c.currentClass s = c'.currentClass s' := by
  rw [Context.currentClass, Context.currentClass]
  obtain ⟨ho, ho'⟩ | ⟨cls, cls', ho, ho', halike, hclass⟩ := rel_cases hs.owner
  · rw [ho, ho']
  · rw [ho, ho']
    have htext := halike.definedName (.inr hclass)
    dsimp only
    obtain ⟨hm, hm'⟩ | ⟨m, m', hm, hm', -⟩ := rel_cases (halike.child? .name)
    · rw [hm, hm']
    · rw [hm, hm', Option.map_some, Option.map_some] at htext
      rw [hm, hm']
      dsimp only
      rw [Option.some.inj htext, CallGraph.qualified_alike hc.names]

theorem receiverClass (hs : s.Alike a s') {object object' : Option Node}
    (hobject : Option.Rel (Node.Alike a) object object') :
    c.receiverClass object s = c'.receiverClass object' s' := by
  have hvariable : object.bind Node.plainVariable? = object'.bind Node.plainVariable? :=
    bind_eq_of_rel hobject fun _ _ hn => Node.Alike.plainVariable? hn
  rw [Context.receiverClass, Context.receiverClass, ← hvariable, hc.currentClass hs, hc.facts.types]

theorem scopeClass (hs : s.Alike a s') {scope scope' : Option Node}
    (hscope : Option.Rel (Node.Respells a) scope scope') :
    c.scopeClass scope s = c'.scopeClass scope' s' := by
  rw [Context.scopeClass, Context.scopeClass, hc.currentClass hs]
  exact hc.graph.scopeClass hc.names hscope _

theorem described (hn : Node.Alike a n n') :
    requestSource?.described c n = requestSource?.described c' n' := by
  rw [requestSource?.described, requestSource?.described, hc.facts.describe hn]

theorem requestSource? (hn : Node.Alike a n n') : c.requestSource? n = c'.requestSource? n' := by
  have hu := hn.unwrap
  have hknown : c.facts.isSuperglobal = c'.facts.isSuperglobal := by
    funext name
    rw [Facts.isSuperglobal, Facts.isSuperglobal, hc.facts.values]
  rw [Context.requestSource?, Context.requestSource?, hu.superglobal?, hu.plainVariable?, hknown,
    hc.described hu]

include ha

theorem called? (hn : Node.Alike a n n') (hk : n.kind = .functionCallExpression) :
    c.called? n = c'.called? n' := by
  rw [Context.called?, Context.called?]
  obtain ⟨hf, hf'⟩ | ⟨fn, fn', hf, hf', hfn⟩ := rel_cases hn.callee?
  · rw [hf, hf']
  · rw [hf, hf']
    dsimp only
    rw [← hfn.isName]
    split
    case isTrue hname =>
      have hfresh := hn.fresh hk hf hname
      rw [hc.names.globalFunction ha hfn hname hfresh, hc.names.candidates ha hfn hname hfresh]
    case isFalse => rfl

theorem chainsToForbidden : c.chainsToForbidden = c'.chainsToForbidden := by
  funext candidates
  rw [Context.chainsToForbidden, Context.chainsToForbidden, hc.graph.resolveFunction]
  split
  case h_1 => exact hc.graph.chainsToForbidden ha _
  case h_2 => rfl

theorem methodChains : c.methodChains = c'.methodChains := by
  funext className method
  exact hc.graph.chainsToForbidden ha _

theorem verdict? : c.verdict? = c'.verdict? := by
  funext name candidates
  rw [Context.verdict?, Context.verdict?, hc.policy, hc.chainsToForbidden ha]

theorem nameVerdict? : c.nameVerdict? = c'.nameVerdict? := by
  funext name
  rw [Context.nameVerdict?, Context.nameVerdict?, hc.verdict? ha]

theorem calledVerdict? : c.calledVerdict? = c'.calledVerdict? := by
  funext f
  rw [Context.calledVerdict?, Context.calledVerdict?, hc.verdict? ha]

end Readers

end Context.Alike

section Rows

/-- Rows that tell the same, one by one. -/
def Agree (rows rows' : List Violation) : Prop :=
  List.Forall₂ Violation.Agrees rows rows'

theorem agrees_violation (type : String) (severity : Severity) (issue issue' : String)
    {data data' : Table Value}
    (hdata : data.filter (fun e => e.1 != "expression") =
      data'.filter fun e => e.1 != "expression") :
    (c.violation type severity n issue data).Agrees
      (c'.violation type severity n' issue' data') := by
  rw [Violation.Agrees, Violation.gist, Violation.gist]
  exact congrArg (fun d => (type, severity, d)) hdata

theorem agree_row (type : String) (severity : Severity) (issue issue' : String)
    {data data' : Table Value}
    (hdata : data.filter (fun e => e.1 != "expression") =
      data'.filter fun e => e.1 != "expression") :
    Agree [c.violation type severity n issue data] [c'.violation type severity n' issue' data'] :=
  .cons (agrees_violation type severity issue issue' hdata) .nil

theorem agree_if {on : Bool} {rows rows' : List Violation} (h : on = true → Agree rows rows') :
    Agree (if on then rows else []) (if on then rows' else []) := by
  split
  case isTrue hon => exact h hon
  case isFalse => exact .nil

theorem agree_append {rows rows' more more' : List Violation} (h : Agree rows rows')
    (hmore : Agree more more') : Agree (rows ++ more) (rows' ++ more') :=
  List.rel_append h hmore

theorem agree_iff {rows rows' : List Violation} :
    Agree rows rows' ↔ rows.map Violation.gist = rows'.map Violation.gist := by
  rw [Agree, ← List.forall₂_eq_eq_eq, List.forall₂_map_left_iff, List.forall₂_map_right_iff]
  rfl

/-- Rows between rows that agree. -/
theorem agree_between_iff {front front' rows rows' back back' : List Violation}
    (hfront : Agree front front') (hback : Agree back back') :
    Agree (front ++ rows ++ back) (front' ++ rows' ++ back') ↔ Agree rows rows' := by
  rw [agree_iff] at hfront hback ⊢
  rw [List.map_append, List.map_append, List.map_append, List.map_append, hfront, hback,
    List.append_cancel_right_eq, List.append_cancel_left_eq, agree_iff]

end Rows

theorem texts_injective {chain chain' : List String} (h : Value.texts chain = Value.texts chain') :
    chain = chain' := by
  rw [Value.texts, Value.texts, Value.list.injEq] at h
  exact List.map_injective_iff.2 (fun _ _ hv => by cases hv; rfl) h

/-- The names of the calls that a payload passes through, as they are spelled. -/
def spelledChain (call : Node) : List String :=
  match call.firstArgument? with
  | some payload => CallGraph.callChain CallGraph.callChainDepth payload
  | none => []

/-- The chain of decoders that is read off a call of `eval`. -/
def decoders (c : Context) (n : Node) : List String :=
  if n.kind == .functionCallExpression && ((c.called? n).any fun f => f.name == "eval") &&
      (spelledChain n).any c.policy.isObfuscator then spelledChain n
  else []

theorem decoders_of_ne (c : Context) (hk : n.kind ≠ .functionCallExpression) :
    decoders c n = [] := by
  rw [decoders, beq_eq_false_iff_ne.2 hk]
  rfl

def obfuscatedType : String := "always_forbidden_obfuscated_eval"

section Calls

variable (hc : c.Alike a c') (hs : s.Alike a s') (ha : a.Proper)

include hc hs ha

theorem agree_namedCall (hk : s.node.kind = .functionCallExpression) :
    Agree (namedCall c s) (namedCall c' s') := by
  rw [namedCall, namedCall, ← hc.called? ha hs.node hk, ← hc.policy, ← hc.chainsToForbidden ha]
  split
  case h_1 => exact .nil
  case h_2 f _ =>
    have hrow (on : Bool) (type : String) (severity : Severity) (issue : String) :
        Agree (if on then [c.violation type severity s.node issue (function f.name)] else [])
          (if on then [c'.violation type severity s'.node issue (function f.name)] else []) :=
      agree_if fun _ => agree_row _ _ _ _ rfl
    dsimp only
    apply agree_append _ (hrow _ _ _ _)
    apply agree_append _ (hrow _ _ _ _)
    apply agree_append _ (hrow _ _ _ _)
    apply agree_append _ (hrow _ _ _ _)
    split
    case isTrue => exact agree_row _ _ _ _ rfl
    case isFalse => exact hrow _ _ _ _

omit ha hs in
theorem agree_elementCall {fn fn' : Node} (hfn : Node.Alike a fn fn') :
    Agree (elementCall c s fn) (elementCall c' s' fn') := by
  rw [elementCall, elementCall, ← hc.requestSource? hfn.subscriptBase]
  split
  case h_1 => exact agree_row _ _ _ _ rfl
  case h_2 => exact agree_row _ _ _ _ rfl

omit hc ha in
theorem callee_alike : Option.Rel (Node.Alike a) (s.node.callee?.map Node.unwrap)
    (s'.node.callee?.map Node.unwrap) :=
  rel_map hs.node.callee? fun _ _ _ hn => hn.unwrap

theorem agree_variableCall : Agree (variableCall c s) (variableCall c' s') := by
  rw [variableCall, variableCall]
  obtain ⟨hf, hf'⟩ | ⟨fn, fn', hf, hf', hfn⟩ := rel_cases (callee_alike hs)
  · rw [hf, hf']
    exact .nil
  · rw [hf, hf']
    dsimp only
    rw [← hfn.kind, ← hfn.plainVariable?, ← hc.facts.values, ← hc.policy,
      ← hc.chainsToForbidden ha]
    split
    case isTrue => exact agree_elementCall hc hfn
    case isFalse =>
      split
      case h_1 => exact .nil
      case h_2 =>
        split
        case isTrue => exact agree_row _ _ _ _ rfl
        case isFalse =>
          apply List.Forall₂.cons (agrees_violation _ _ _ _ rfl)
          exact agree_if fun _ => agree_row _ _ _ _ rfl

theorem agree_concatCall : Agree (concatCall c s) (concatCall c' s') := by
  rw [concatCall, concatCall]
  obtain ⟨hf, hf'⟩ | ⟨fn, fn', hf, hf', hfn⟩ := rel_cases (callee_alike hs)
  · rw [hf, hf']
    exact .nil
  · rw [hf, hf']
    dsimp only
    rw [← hfn.isConcat, ← hc.facts.describe hfn, ← hc.nameVerdict? ha]
    generalize Text.lower _ = expression
    split
    case isTrue => exact .nil
    case isFalse =>
      split
      case isTrue => exact agree_row _ _ _ _ rfl
      case isFalse => split <;> exact agree_row _ _ _ _ rfl

theorem agree_closureCalls : Agree (closureCalls c s) (closureCalls c' s') := by
  rw [closureCalls, closureCalls]
  obtain ⟨hb, hb'⟩ | ⟨body, body', hb, hb', hbody⟩ := rel_cases (hs.child? .body)
  · rw [hb, hb']
    exact .nil
  · rw [hb, hb']
    apply rel_flatMap hbody.preorder
    intro x _ x' hx
    rw [← hx.node.kind, ← hc.calledVerdict? ha]
    split
    case isTrue => exact .nil
    case isFalse hcall =>
      rw [← hc.called? ha hx.node (by simpa using hcall)]
      split
      case h_1 => exact .nil
      case h_2 =>
        split
        case h_4 => exact .nil
        all_goals exact agree_row _ _ _ _ rfl

omit hs in
theorem agree_namedCallback (name literal : String) :
    Agree (namedCallback c s name literal) (namedCallback c' s' name literal) := by
  rw [namedCallback, namedCallback, ← hc.nameVerdict? ha]
  dsimp only
  split
  case isTrue => exact .nil
  case isFalse =>
    split
    case h_1 =>
      apply agree_append (agree_row _ _ _ _ rfl)
      exact agree_if fun _ => agree_row _ _ _ _ rfl
    case h_2 => exact agree_row _ _ _ _ rfl
    case h_3 => exact agree_row _ _ _ _ rfl
    case h_4 => exact .nil

theorem agree_callback (hk : s.node.kind = .functionCallExpression) :
    Agree (callback c s) (callback c' s') := by
  rw [callback, callback, ← hc.called? ha hs.node hk, ← hc.policy]
  split
  case h_1 => exact .nil
  case h_2 f _ =>
    dsimp only
    split
    case isTrue => exact .nil
    case isFalse =>
      apply rel_flatMap hs.node.argumentValues
      intro arg _ arg' harg
      have hu := harg.unwrap
      rw [← hu.literal?, ← hu.kind]
      split
      case h_1 literal _ => exact agree_namedCallback hc ha _ literal
      case h_2 =>
        split
        case isTrue =>
          have hrows := agree_closureCalls hc (hs.at_ hu) ha
          have hempty : (closureCalls c (s.at_ arg.unwrap)).isEmpty =
              (closureCalls c' (s'.at_ arg'.unwrap)).isEmpty := by
            revert hrows
            generalize closureCalls c (s.at_ arg.unwrap) = rows
            generalize closureCalls c' (s'.at_ arg'.unwrap) = rows'
            intro hrows
            cases hrows <;> rfl
          rw [← hempty]
          split
          case isTrue => exact .nil
          case isFalse => exact agree_append hrows (agree_row _ _ _ _ rfl)
        case isFalse => exact .nil

theorem agree_wrapperStream (hk : s.node.kind = .functionCallExpression) :
    Agree (wrapperStream c s) (wrapperStream c' s') := by
  have hfirst : s.node.firstArgument?.bind Node.literal? =
      s'.node.firstArgument?.bind Node.literal? :=
    bind_eq_of_rel hs.node.firstArgument? fun _ _ hn => Node.Alike.literal? hn
  rw [wrapperStream, wrapperStream, ← hc.called? ha hs.node hk, ← hc.policy, ← hfirst]
  split
  case h_1 => exact .nil
  case h_2 =>
    split
    case isTrue => exact .nil
    case isFalse =>
      split
      case h_1 =>
        split
        case isTrue => exact .nil
        case isFalse => exact agree_row _ _ _ _ rfl
      case h_2 => exact .nil

theorem agree_requestCode (hk : s.node.kind = .functionCallExpression) :
    Agree (requestCode c s) (requestCode c' s') := by
  have hsource : (s.node.argumentValues.findSome? fun n =>
        (c.requestSource? n).filter fun source => source != "") =
      s'.node.argumentValues.findSome? fun n =>
        (c'.requestSource? n).filter fun source => source != "" :=
    findSome?_eq_of_forall₂ (fun _ _ hn => by rw [hc.requestSource? hn]) hs.node.argumentValues
  rw [requestCode, requestCode, ← hc.called? ha hs.node hk, ← hsource]
  split
  case h_1 => exact .nil
  case h_2 =>
    split
    case isTrue => exact .nil
    case isFalse =>
      split
      case h_1 => exact agree_row _ _ _ _ rfl
      case h_2 => exact .nil

omit hs ha in
theorem agree_classReferenceRows {name name' : Node} (hn : Node.Respells a name name')
    (hname : name.isName = true) (kind : String) :
    Agree (classReferenceRows c n name kind) (classReferenceRows c' n' name' kind) := by
  have hclass : c.resolveClass name = c'.resolveClass name' := hc.names.resolves hn hname
  rw [classReferenceRows, classReferenceRows, ← hn.text_of_isName hname, ← hclass, ← hc.policy]
  split
  case isTrue => exact .nil
  case isFalse =>
    apply agree_append
    · split
      case h_1 => exact agree_row _ _ _ _ rfl
      case h_2 => exact .nil
    · apply agree_if
      intro _
      exact .cons (agrees_violation _ _ _ _ rfl) (agree_row _ _ _ _ rfl)

omit ha in
theorem agree_staticReference : Agree (staticReference c s) (staticReference c' s') := by
  rw [staticReference, staticReference]
  obtain ⟨hx, hx'⟩ | ⟨scope, scope', hx, hx', hscope⟩ :=
    rel_cases (hs.node.child?_of_ne (r := .scope) (by decide))
  · rw [hx, hx']
    exact .nil
  · rw [hx, hx']
    dsimp only
    rw [← Node.Alike.isName (.inl hscope)]
    apply agree_if
    intro hname
    exact agree_classReferenceRows hc hscope hname _

omit ha in
theorem receiver_alike : c.receiverClass (s.node.child? .object) s =
    c'.receiverClass (s'.node.child? .object) s' :=
  hc.receiverClass hs (hs.node.child? .object)

omit ha in
theorem scope_alike : c.scopeClass (s.node.child? .scope) s =
    c'.scopeClass (s'.node.child? .scope) s' :=
  hc.scopeClass hs (hs.node.child?_of_ne (by decide))

theorem agree_dynamicMethod : Agree (dynamicMethod c s) (dynamicMethod c' s') := by
  rw [dynamicMethod, dynamicMethod]
  dsimp only
  rw [← hs.node.kind, ← receiver_alike hc hs, ← scope_alike hc hs, ← hc.facts.values, ← hc.policy,
    ← hc.methodChains ha]
  obtain ⟨hm, hm'⟩ | ⟨m, m', hm, hm', hmethod⟩ := rel_cases (hs.node.child? .name)
  · rw [hm, hm']
    exact .nil
  · rw [hm, hm']
    dsimp only
    rw [← hmethod.kind, ← hmethod.plainVariable?]
    split
    case isTrue => exact .nil
    case isFalse =>
      split
      case h_1 => exact agree_row _ _ _ _ rfl
      case h_2 =>
        split
        case h_1 => exact agree_row _ _ _ _ rfl
        case h_2 =>
          split
          case isTrue => exact agree_row _ _ _ _ rfl
          case isFalse =>
            split
            case isTrue => exact agree_row _ _ _ _ rfl
            case isFalse =>
              split
              case isTrue => exact agree_row _ _ _ _ rfl
              case isFalse => exact agree_if fun _ => agree_row _ _ _ _ rfl

omit hs ha hc in
theorem contains_specialScopes {x y : String} (h : Text.SameWord x y) :
    specialScopes.contains x = specialScopes.contains y := by
  simp only [specialScopes, List.contains_cons, h.beq (show '(' ∉ "self".toList by decide),
    h.beq (show '(' ∉ "static".toList by decide), h.beq (show '(' ∉ "parent".toList by decide)]
  rfl

omit ha in
theorem calledClass_alike : calledClass c s = calledClass c' s' := by
  rw [calledClass, calledClass, ← hs.node.kind, receiver_alike hc hs]
  split
  case isTrue =>
    obtain ⟨hx, hx'⟩ | ⟨scope, scope', hx, hx', hscope⟩ :=
      rel_cases (hs.node.child?_of_ne (r := .scope) (by decide))
    · rw [hx, hx']
    · rw [hx, hx']
      dsimp only
      rw [contains_specialScopes hscope.sameWord.strip.lower, hc.scopeClass hs (.some hscope),
        ← Node.Alike.isName (.inl hscope)]
      split
      case isTrue => rfl
      case isFalse =>
        split
        case isTrue hname =>
          exact congrArg classKey (hc.names.resolves hscope hname)
        case isFalse => rfl
  case isFalse => rfl

omit ha in
theorem agree_blockedMethod : Agree (blockedMethod c s) (blockedMethod c' s') := by
  rw [blockedMethod, blockedMethod, ← calledClass_alike hc hs, ← hc.policy]
  obtain ⟨hm, hm'⟩ | ⟨m, m', hm, hm', hmethod⟩ :=
    rel_cases (hs.node.child?_of_ne (r := .name) (by decide))
  · rw [hm, hm']
    exact .nil
  · rw [hm, hm']
    dsimp only
    rw [← hmethod.kind]
    split
    case isTrue => exact .nil
    case isFalse hname =>
      have htext : m.text = m'.text := by
        apply hmethod.text_of_isName
        rw [Node.isName, (by simpa using hname : m.kind = .name)]
        rfl
      rw [← htext]
      split
      case isTrue => exact .nil
      case isFalse =>
        split
        case h_1 => exact .nil
        case h_2 =>
          split
          case isTrue => exact .nil
          case isFalse => exact agree_row _ _ _ _ rfl

omit ha hs hc in
theorem obfuscatedEval_eq (hk : s.node.kind = .functionCallExpression) :
    obfuscatedEval c s = if decoders c s.node = [] then [] else
      [c.violation obfuscatedType .critical s.node
        ("eval() of decoded/obfuscated payload: " ++ Text.join " -> " (decoders c s.node))
        [("chain", .texts (decoders c s.node))]] := by
  cases hcalled : c.called? s.node with
  | none => simp [obfuscatedEval, decoders, hcalled]
  | some f =>
    have hchain : obfuscatedEval c s =
        if f.name != "eval" then []
        else if (spelledChain s.node).any c.policy.isObfuscator then
          [c.violation obfuscatedType .critical s.node
            ("eval() of decoded/obfuscated payload: " ++ Text.join " -> " (spelledChain s.node))
            [("chain", .texts (spelledChain s.node))]]
        else [] := by
      rw [obfuscatedEval, hcalled]
      rfl
    rw [hchain, decoders, hk, hcalled]
    generalize spelledChain s.node = chain
    by_cases hname : f.name = "eval"
    · by_cases hany : chain.any c.policy.isObfuscator = true
      · have hne : chain ≠ [] := by
          rintro rfl
          cases hany
        simp [hname, hany, hne]
      · simp [hname, hany]
    · simp [hname]

omit hc ha in
/-- The payload is reported alike if and only if the same decoders are read off it. -/
theorem agree_obfuscatedEval_iff (hk : s.node.kind = .functionCallExpression) :
    Agree (obfuscatedEval c s) (obfuscatedEval c' s') ↔
      decoders c s.node = decoders c' s'.node := by
  rw [obfuscatedEval_eq hk, obfuscatedEval_eq (hs.node.kind.symm.trans hk)]
  generalize decoders c s.node = chain
  generalize decoders c' s'.node = chain'
  constructor
  · intro hagree
    by_cases hnone : chain = []
    · by_cases hnone' : chain' = []
      · rw [hnone, hnone']
      · rw [if_pos hnone, if_neg hnone'] at hagree
        cases hagree
    · by_cases hnone' : chain' = []
      · rw [if_neg hnone, if_pos hnone'] at hagree
        cases hagree
      · rw [if_neg hnone, if_neg hnone', agree_iff] at hagree
        exact texts_injective (by simpa [Violation.gist, violation] using hagree)
  · rintro rfl
    split
    case isTrue => exact .nil
    case isFalse => exact agree_row _ _ _ _ rfl

/-- A row that does not read a chain of decoders. -/
def isOrdinary (v : Violation) : Bool :=
  v.type != obfuscatedType

omit hs ha hc in
theorem Agree.ordinary {rows rows' : List Violation} (h : Agree rows rows') :
    Agree (rows.filter isOrdinary) (rows'.filter isOrdinary) := by
  apply rel_filter _ h
  intro v v' hv
  have htype : v.type = v'.type := congrArg Prod.fst hv
  rw [isOrdinary, isOrdinary, htype]

omit hs ha hc in
theorem ordinary_between {front rows back : List Violation} (h : rows.filter isOrdinary = []) :
    (front ++ rows ++ back).filter isOrdinary = (front ++ back).filter isOrdinary := by
  rw [List.filter_append, List.filter_append, h, List.append_nil, List.filter_append]

omit hs ha hc in
theorem ordinary_obfuscatedEval (hk : s.node.kind = .functionCallExpression) :
    (obfuscatedEval c s).filter isOrdinary = [] := by
  rw [obfuscatedEval_eq hk]
  split
  case isTrue => rfl
  case isFalse => rfl

omit hs ha hc in
theorem visit_call (hk : s.node.kind = .functionCallExpression) :
    visit c s = (namedCall c s ++ (variableCall c s ++ (concatCall c s ++ callback c s))) ++
      obfuscatedEval c s ++ (wrapperStream c s ++ requestCode c s) := by
  rw [visit, hk]
  simp [detectors, callDetectors]

theorem agree_call (hk : s.node.kind = .functionCallExpression) :
    Agree ((visit c s).filter isOrdinary) ((visit c' s').filter isOrdinary) ∧
      (Agree (visit c s) (visit c' s') ↔ decoders c s.node = decoders c' s'.node) := by
  have hk' : s'.node.kind = .functionCallExpression := hs.node.kind.symm.trans hk
  have hfront : Agree (namedCall c s ++ (variableCall c s ++ (concatCall c s ++ callback c s)))
      (namedCall c' s' ++ (variableCall c' s' ++ (concatCall c' s' ++ callback c' s'))) := by
    apply agree_append (agree_namedCall hc hs ha hk)
    apply agree_append (agree_variableCall hc hs ha)
    exact agree_append (agree_concatCall hc hs ha) (agree_callback hc hs ha hk)
  have hback : Agree (wrapperStream c s ++ requestCode c s)
      (wrapperStream c' s' ++ requestCode c' s') :=
    agree_append (agree_wrapperStream hc hs ha hk) (agree_requestCode hc hs ha hk)
  rw [visit_call hk, visit_call hk']
  constructor
  · rw [ordinary_between (ordinary_obfuscatedEval hk),
      ordinary_between (ordinary_obfuscatedEval hk')]
    exact (agree_append hfront hback).ordinary
  · rw [agree_between_iff hfront hback]
    exact agree_obfuscatedEval_iff hs hk

theorem agree_methodCall (hk : s.node.kind.isCall = true)
    (hn : s.node.kind ≠ .functionCallExpression) : Agree (visit c s) (visit c' s') := by
  have hmethod : Agree (dynamicMethod c s ++ blockedMethod c s)
      (dynamicMethod c' s' ++ blockedMethod c' s') :=
    agree_append (agree_dynamicMethod hc hs ha) (agree_blockedMethod hc hs)
  rw [visit, visit, ← hs.node.kind]
  rcases Kind.isCall_cases hk with hk | hk | hk | hk
  · exact absurd hk hn
  · rw [hk]
    simpa [detectors] using hmethod
  · rw [hk]
    simpa [detectors] using hmethod
  · rw [hk]
    simpa [detectors] using agree_append (agree_staticReference hc hs) hmethod

end Calls

/-- A function that is imported under another name is judged as before. In every call of the file,
by whichever name, all rows but those of decoded payloads tell the same; those do so if and only if
the same decoders are read off the payload. -/
theorem aliased_calls_agree {s s' : Script} (ha : a.Proper) (hs : s.Respelled a s')
    (policy : Policy) (maxDepth : Int) (us vs : List Script) (extension : Option String)
    (size : Option Nat) :
    List.Forall₂ (fun p p' => Node.Alike a p.2.node p'.2.node ∧
        Agree ((visit p.1 p.2).filter isOrdinary) ((visit p'.1 p'.2).filter isOrdinary) ∧
        (Agree (visit p.1 p.2) (visit p'.1 p'.2) ↔
          decoders p.1 p.2.node = decoders p'.1 p'.2.node))
      (callVisits policy (.ofScripts policy maxDepth (us ++ s :: vs)) s extension size)
      (callVisits policy (.ofScripts policy maxDepth (us ++ s' :: vs)) s' extension size) := by
  have hg := CallGraph.ofScripts_alike ha hs policy maxDepth us vs
  have hcalls : ∀ p ∈ callVisits policy (.ofScripts policy maxDepth (us ++ s :: vs)) s extension
      size, p.2.node.kind.isCall = true :=
    fun p hp => (List.mem_filter.1 hp).2
  apply List.Forall₂.imp _ ((List.forall₂_and_left _ _).2
    ⟨hcalls, callVisits_alike ha hs hg policy extension size⟩)
  rintro p p' ⟨hcall, hc, hs⟩
  refine ⟨hs.node, ?_⟩
  by_cases hk : p.2.node.kind = .functionCallExpression
  · exact agree_call hc hs ha hk
  · have hagree := agree_methodCall hc hs ha hcall hk
    refine ⟨hagree.ordinary, iff_of_true hagree ?_⟩
    rw [decoders_of_ne p.1 hk, decoders_of_ne p'.1 fun hk' => hk (hs.node.kind.trans hk')]

section Sources

/-- A call with one argument. -/
def callWith (f : String) (start : Nat) (value : Node) : Node :=
  .mk .functionCallExpression none start (value.stop + 1) 1 (f ++ "(" ++ value.text ++ ")") [
    .mk .name (some .callee) start (start + f.length) 1 f [],
    .mk .arguments (some .arguments) (start + f.length) (value.stop + 1) 1
      ("(" ++ value.text ++ ")") [
        .mk .token none (start + f.length) (start + f.length + 1) 1 "(" [],
        .mk .argument none value.start value.stop 1 value.text [value],
        .mk .token none value.stop (value.stop + 1) 1 ")" []]]

/-- The variable `$p`. -/
def payload (start : Nat) : Node :=
  .mk .variableName none start (start + 2) 1 "$p" [
    .mk .token none start (start + 1) 1 "$" [],
    .mk .name none (start + 1) (start + 2) 1 "p" []]

def importOf (a : Alias) (start : Nat) : Node :=
  let name := start + "use function ".length
  let knownAs := name + a.name.length + " as ".length
  let stop := knownAs + a.knownAs.length
  .mk .namespaceUseDeclaration none start (stop + 1) 1 a.text [
    .mk .token none start (start + 3) 1 "use" [],
    .mk .token none (start + 4) (start + 12) 1 "function" [],
    .mk .namespaceUseClause none name stop 1 (a.name ++ " as " ++ a.knownAs) [
      .mk .name none name (name + a.name.length) 1 a.name [],
      .mk .token none (name + a.name.length + 1) (name + a.name.length + 3) 1 "as" [],
      .mk .name none knownAs stop 1 a.knownAs []],
    .mk .token none stop (stop + 1) 1 ";" []]

def statement (call : Node) : Node :=
  .mk .expressionStatement none call.start (call.stop + 1) 1 (call.text ++ ";") [
    call, .mk .token none call.stop (call.stop + 1) 1 ";" []]

def openTag : Node :=
  .mk .phpTag none 0 5 1 "<?php" []

def program (text : String) (statements : List Node) (stop : Nat) : Node :=
  .mk .program none 0 stop 1 text (openTag :: statements)

/-- A file of the given text and tree. -/
def fileOf (text : String) (root : Node) : Script :=
  ⟨"plugin.php", .ofBytes text.toUTF8, root, .ofTree root⟩

theorem names_fileOf (text : String) (root : Node) :
    (fileOf text root).names = Names.ofTree (fileOf text root).root := rfl

theorem holdsCode_of_paren (hparen : '(' ∈ n.text.toList)
    (hk : [.functionCallExpression, .arguments, .argument, .expressionStatement].contains n.kind =
      true) : n.HoldsCode := by
  simp only [List.contains_iff_mem, List.mem_cons, List.not_mem_nil, or_false] at hk
  rcases hk with hk | hk | hk | hk
  all_goals
    refine ⟨hparen, ?_, ?_, ?_⟩
    · rw [Node.isName, hk]
      rfl
    · rw [hk]
      decide
    · intro hstring
      rw [hk] at hstring
      cases hstring

theorem respells_of_children (hk : n.kind = n'.kind) (hr : n.role = n'.role)
    (hinner : [.name, .token, .phpTag, .variableName, .arguments, .argument,
      .expressionStatement].contains n.kind = true)
    (ht : n.text = n'.text ∨ n.HoldsCode ∧ n'.HoldsCode)
    (hcs : Node.RespellsAll a n.kind n.children n'.children) : Node.Respells a n n' := by
  have hkind : n.kind ≠ .functionCallExpression ∧ n.kind.isFunctionLike = false ∧
      n.kind.isClassLike = false := by
    simp only [List.contains_iff_mem, List.mem_cons, List.not_mem_nil, or_false] at hinner
    rcases hinner with hk | hk | hk | hk | hk | hk | hk <;> rw [hk] <;> decide
  refine .mk hk hr ht (fun hcall => absurd hcall hkind.1) ?_ hcs
  rintro (h | h)
  · exact absurd (hkind.2.1.symm.trans h) Bool.false_ne_true
  · exact absurd (hkind.2.2.symm.trans h) Bool.false_ne_true

theorem respells_token {r : Option Role} {t : String} (i e l i' e' l' : Nat) :
    Node.Respells a (.mk .token r i e l t []) (.mk .token r i' e' l' t []) :=
  respells_of_children rfl rfl rfl (.inl rfl) .nil

theorem respells_name {r : Option Role} {t : String} (i e l i' e' l' : Nat) :
    Node.Respells a (.mk .name r i e l t []) (.mk .name r i' e' l' t []) :=
  respells_of_children rfl rfl rfl (.inl rfl) .nil

theorem respells_payload (i i' : Nat) : Node.Respells a (payload i) (payload i') :=
  respells_of_children rfl rfl rfl (.inl rfl)
    (.cons (respells_token _ _ _ _ _ _) (.cons (respells_name _ _ _ _ _ _) .nil))

theorem mem_callText (s t : String) : '(' ∈ (s ++ "(" ++ t ++ ")").toList := by
  simp

theorem holdsCode_callWith (f f' : String) (i i' : Nat) (value value' : Node) :
    (callWith f i value).HoldsCode ∧ (callWith f' i' value').HoldsCode :=
  ⟨holdsCode_of_paren (mem_callText f value.text) rfl,
    holdsCode_of_paren (mem_callText f' value'.text) rfl⟩

theorem respells_callWith {f f' : String} {value value' : Node} (i i' : Nat)
    (hfresh : Text.lower (Text.strip f) ≠ Text.lower a.knownAs)
    (hf : f = f' ∨ (IsIdentifier f ∧ Unblanked f ∧ Text.lower f = Text.lower a.name) ∧
      f' = a.knownAs)
    (hvalue : Node.Respells a value value') :
    Node.Respells a (callWith f i value) (callWith f' i' value') := by
  have hvalues : Node.Respells a
      (.mk .argument none value.start value.stop 1 value.text [value])
      (.mk .argument none value'.start value'.stop 1 value'.text [value']) := by
    refine respells_of_children rfl rfl rfl ?_ (.cons hvalue .nil)
    exact hvalue.sameWord.imp_right fun h =>
      ⟨holdsCode_of_paren h.1 rfl, holdsCode_of_paren h.2 rfl⟩
  have harguments : Node.Respells a
      (.mk .arguments (some .arguments) (i + f.length) (value.stop + 1) 1
        ("(" ++ value.text ++ ")") [
          .mk .token none (i + f.length) (i + f.length + 1) 1 "(" [],
          .mk .argument none value.start value.stop 1 value.text [value],
          .mk .token none value.stop (value.stop + 1) 1 ")" []])
      (.mk .arguments (some .arguments) (i' + f'.length) (value'.stop + 1) 1
        ("(" ++ value'.text ++ ")") [
          .mk .token none (i' + f'.length) (i' + f'.length + 1) 1 "(" [],
          .mk .argument none value'.start value'.stop 1 value'.text [value'],
          .mk .token none value'.stop (value'.stop + 1) 1 ")" []]) := by
    refine respells_of_children rfl rfl rfl (.inr ⟨?_, ?_⟩) ?_
    · exact holdsCode_of_paren (mem_callText "" value.text) rfl
    · exact holdsCode_of_paren (mem_callText "" value'.text) rfl
    · apply Node.RespellsAll.cons (respells_token _ _ _ _ _ _)
      apply Node.RespellsAll.cons hvalues
      exact .cons (respells_token _ _ _ _ _ _) .nil
  refine .mk rfl rfl (.inr (holdsCode_callWith f f' i i' value value')) ?_ ?_ ?_
  · intro _ g hg _
    obtain rfl : Node.mk .name (some .callee) i (i + f.length) 1 f [] = g := Option.some.inj hg
    exact hfresh
  · rintro (h | h) <;> cases h
  · obtain rfl | ⟨hold, rfl⟩ := hf
    · exact .cons (respells_name _ _ _ _ _ _) (.cons harguments .nil)
    · exact .renamed ⟨⟨rfl, rfl⟩, ⟨rfl, rfl⟩, ⟨rfl, rfl⟩, hold, rfl⟩ (.cons harguments .nil)

theorem respells_statement {call call' : Node} (hcall : Node.Respells a call call')
    (hcode : call.HoldsCode ∧ call'.HoldsCode) :
    Node.Respells a (statement call) (statement call') := by
  have hparen (call : Node) (h : call.HoldsCode) : '(' ∈ (statement call).text.toList := by
    rw [show (statement call).text = call.text ++ ";" from rfl, String.toList_append]
    exact List.mem_append_left _ h.paren
  refine respells_of_children rfl rfl rfl (.inr ⟨?_, ?_⟩) ?_
  · exact holdsCode_of_paren (hparen call hcode.1) rfl
  · exact holdsCode_of_paren (hparen call' hcode.2) rfl
  · exact .cons hcall (.cons (respells_token _ _ _ _ _ _) .nil)

theorem respelled_program {call call' : Node} (hcall : Node.Respells a call call')
    (hcode : call.HoldsCode ∧ call'.HoldsCode) (text text' : String) (i stop stop' : Nat) :
    (fileOf text (program text [statement call] stop)).Respelled a
      (fileOf text' (program text' [importOf a i, statement call'] stop')) where
  names := names_fileOf _ _
  names' := names_fileOf _ _
  kind := ⟨rfl, rfl⟩
  global := by
    intro c hc
    have hmem : c ∈ [openTag, statement call] := (List.mem_filter.1 hc).1
    rcases List.mem_pair.1 hmem with rfl | rfl
    · exact show Kind.phpTag ≠ .namespaceDefinition by decide
    · exact show Kind.expressionStatement ≠ .namespaceDefinition by decide
  unknown := by
    intro j hj
    have hnone :
        importsAmong (fileOf text (program text [statement call] stop)).root.namedChildren = [] :=
      rfl
    rw [hnone] at hj
    cases hj
  trees := by
    refine ⟨[openTag], [statement call], [openTag], [statement call'], importOf a i, rfl, rfl,
      .cons ?_ .nil, .cons (respells_statement hcall hcode) .nil, rfl, rfl, ?_⟩
    · exact respells_of_children rfl rfl rfl (.inl rfl) .nil
    · have hkinds : (Node.preorderAll (importOf a i).children).map Node.kind =
          [.token, .token, .namespaceUseClause, .name, .token, .name, .token] := rfl
      intro n hn
      have hk : n.kind ∈ (Node.preorderAll (importOf a i).children).map Node.kind :=
        List.mem_map_of_mem hn
      rw [hkinds] at hk
      simp only [List.mem_cons, List.not_mem_nil, or_false] at hk ⊢
      tauto

/-- The function `base64_decode`, imported as `h`. -/
def decoding : Alias :=
  ⟨"base64_decode", "h"⟩

theorem proper_decoding : decoding.Proper where
  name := by decide +kernel
  knownAs := by decide +kernel

theorem lower_decoding : Text.lower (Text.strip "base64_decode") ≠ Text.lower "h" ∧
    Text.lower (Text.strip "eval") ≠ Text.lower "h" := by
  cbv

/-- A policy that takes one function for a decoder. -/
def suspecting (name : String) : Policy :=
  { (default : Policy) with obfuscators := [name] }

/-- A file that decodes a payload. -/
def decoded : Script :=
  fileOf "<?php base64_decode($p);"
    (program "<?php base64_decode($p);" [statement (callWith "base64_decode" 6 (payload 20))] 24)

def aliasedDecoded : Script :=
  fileOf "<?php use function base64_decode as h; h($p);"
    (program "<?php use function base64_decode as h; h($p);"
      [importOf decoding 6, statement (callWith "h" 39 (payload 41))] 45)

/-- A file that evaluates what it decodes. -/
def evaluated : Script :=
  fileOf "<?php eval(base64_decode($p));"
    (program "<?php eval(base64_decode($p));"
      [statement (callWith "eval" 6 (callWith "base64_decode" 11 (payload 25)))] 30)

def aliasedEvaluated : Script :=
  fileOf "<?php use function base64_decode as h; eval(h($p));"
    (program "<?php use function base64_decode as h; eval(h($p));"
      [importOf decoding 6, statement (callWith "eval" 39 (callWith "h" 44 (payload 46)))] 51)

theorem respells_decoding (i i' j j' : Nat) : Node.Respells decoding
    (callWith "base64_decode" i (payload j)) (callWith "h" i' (payload j')) :=
  respells_callWith i i' lower_decoding.1
    (.inr ⟨⟨proper_decoding.name.1, proper_decoding.name.2.1, rfl⟩, rfl⟩) (respells_payload j j')

theorem respelled_decoded : decoded.Respelled decoding aliasedDecoded :=
  respelled_program (respells_decoding _ _ _ _) (holdsCode_callWith _ _ _ _ _ _) _ _ _ _ _

theorem respelled_evaluated : evaluated.Respelled decoding aliasedEvaluated :=
  respelled_program
    (respells_callWith _ _ lower_decoding.2 (.inl rfl) (respells_decoding _ _ _ _))
    (holdsCode_callWith _ _ _ _ _ _) _ _ _ _ _

theorem aliased_decoder_agrees :
    decoding.Proper ∧ decoded.Respelled decoding aliasedDecoded ∧
      List.Forall₂ (fun p p' => Node.Alike decoding p.2.node p'.2.node ∧
          Agree ((visit p.1 p.2).filter isOrdinary) ((visit p'.1 p'.2).filter isOrdinary) ∧
          (Agree (visit p.1 p.2) (visit p'.1 p'.2) ↔
            decoders p.1 p.2.node = decoders p'.1 p'.2.node))
        (callVisits (suspecting "base64_decode")
          (.ofScripts (suspecting "base64_decode") 5 [decoded]) decoded none none)
        (callVisits (suspecting "base64_decode")
          (.ofScripts (suspecting "base64_decode") 5 [aliasedDecoded]) aliasedDecoded none none) :=
  ⟨proper_decoding, respelled_decoded, aliased_calls_agree proper_decoding respelled_decoded
    (suspecting "base64_decode") 5 [] [] none none⟩

/-- The call of `eval` that each of the files starts with. -/
theorem callVisits_evaluated (g g' : CallGraph) :
    (∃ p rest, callVisits (suspecting "base64_decode") g evaluated none none = p :: rest ∧
      p.2.node = callWith "eval" 6 (callWith "base64_decode" 11 (payload 25)) ∧
      p.1.policy = suspecting "base64_decode" ∧ p.1.script = evaluated) ∧
    ∃ p rest, callVisits (suspecting "base64_decode") g' aliasedEvaluated none none = p :: rest ∧
      p.2.node = callWith "eval" 39 (callWith "h" 44 (payload 46)) ∧
      p.1.policy = suspecting "base64_decode" ∧ p.1.script = aliasedEvaluated :=
  ⟨⟨_, _, rfl, rfl, rfl, rfl⟩, ⟨_, _, rfl, rfl, rfl, rfl⟩⟩

theorem called?_evaluated {c : Context} (hs : c.script = evaluated) (value : Node) :
    c.called? (callWith "eval" 6 value) = some ⟨"eval", ["eval"]⟩ := by
  have hregion : evaluated.names.regionAt 6 = .empty 0 30 "" := rfl
  have hlower : Text.lower "eval" = "eval" := by cbv
  have hcandidates : evaluated.names.functionCandidates "eval" 6 = ["eval"] := by
    rw [Names.functionCandidates_of_identifier (by decide +kernel) (by decide +kernel), hregion,
      hlower]
    rfl
  have hcalled : c.called? (callWith "eval" 6 value) =
      some ⟨c.script.names.globalFunction "eval" 6, c.script.names.functionCandidates "eval" 6⟩ :=
    rfl
  rw [hcalled, hs, Names.globalFunction, hcandidates]
  rfl

theorem spelledChain_evaluated :
    spelledChain (callWith "eval" 6 (callWith "base64_decode" 11 (payload 25))) =
        ["base64_decode"] ∧
      spelledChain (callWith "eval" 39 (callWith "h" 44 (payload 46))) = ["h"] ∧
      (suspecting "base64_decode").isObfuscator "base64_decode" = true ∧
      (suspecting "base64_decode").isObfuscator "h" = false := by
  cbv

/-- A decoder that is called by its other name in a payload is not seen: the call of `eval` is not
reported as before. -/
theorem aliased_decoder_unreported :
    decoding.Proper ∧ evaluated.Respelled decoding aliasedEvaluated ∧
      ¬ List.Forall₂ (fun p p' => Agree (visit p.1 p.2) (visit p'.1 p'.2))
        (callVisits (suspecting "base64_decode")
          (.ofScripts (suspecting "base64_decode") 5 [evaluated]) evaluated none none)
        (callVisits (suspecting "base64_decode")
          (.ofScripts (suspecting "base64_decode") 5 [aliasedEvaluated]) aliasedEvaluated
          none none) := by
  refine ⟨proper_decoding, respelled_evaluated, fun hagree => ?_⟩
  have hvisits := callVisits_alike proper_decoding respelled_evaluated
    (CallGraph.ofScripts_alike proper_decoding respelled_evaluated (suspecting "base64_decode") 5
      [] []) (suspecting "base64_decode") none none
  rw [List.nil_append, List.nil_append] at hvisits
  obtain ⟨⟨p, rest, hp, hn, hpolicy, hscript⟩, p', rest', hp', hn', hpolicy', -⟩ :=
    callVisits_evaluated (.ofScripts (suspecting "base64_decode") 5 [evaluated])
      (.ofScripts (suspecting "base64_decode") 5 [aliasedEvaluated])
  rw [hp, hp'] at hagree hvisits
  obtain ⟨hc, hs⟩ := (List.forall₂_cons.1 hvisits).1
  have hk : p.2.node.kind = .functionCallExpression := by
    rw [hn]
    rfl
  have hsame := (agree_call hc hs proper_decoding hk).2.1 (List.forall₂_cons.1 hagree).1
  obtain ⟨hchain, hchain', hdecoder, hother⟩ := spelledChain_evaluated
  have hseen : decoders p.1 p.2.node = ["base64_decode"] := by
    rw [decoders, hn, called?_evaluated hscript, hchain, hpolicy]
    simp [callWith, Node.kind, hdecoder]
  have hmissed : decoders p'.1 p'.2.node = [] := by
    rw [decoders, hn', hchain', hpolicy']
    simp [hother]
  rw [hseen, hmissed] at hsame
  cases hsame

end Sources

end Php.Detect

end PluginAudit
