import Mathlib
import PluginAudit.Proofs.ReportedReturns

namespace PluginAudit.Php.CallGraph

variable {g : CallGraph} {t : Target} {d : Definition} {e : Node} {n : String} {depth : Int}

/-- A chain with at most so many calls leads from the target to something forbidden. -/
def LeadsWithin (g : CallGraph) (depth : Int) (t : Target) : Prop :=
  ∃ rest : List Key, (rest.length : Int) ≤ depth ∧ g.Chain t.lookupKey rest

/-- Where written keys tell definitions apart, the search finds all that the limit allows. -/
theorem PlainKeys.chainsToForbidden_iff (hg : g.PlainKeys) :
    g.chainsToForbidden t = true ↔ g.LeadsWithin g.maxDepth t := by
  constructor
  · intro h
    obtain ⟨rest, hlength, hchain⟩ := exists_chain_of_reaches h
    exact ⟨rest, by omega, hchain⟩
  · rintro ⟨rest, hlength, hchain⟩
    -- The search does not enter a key twice, so it needs a chain without repetitions.
    obtain ⟨rest', hshort, hchain', hnodup⟩ := hchain.exists_nodup
    have hwritten : ((t.lookupKey :: rest').map Key.written).Nodup := by
      apply hnodup.map_on
      intro x hx y hy
      exact hg.written_inj (hchain'.defined x hx) (hchain'.defined y hy)
    exact reaches_of_chain hchain' (by omega) hwritten (by simp)

theorem leadsWithin_iff (hd : g.definition? t = some d) (hdepth : 0 ≤ depth) :
    g.LeadsWithin depth t ↔ ∃ e ∈ d.returns,
      g.IsForbidden d e ∨ ∃ next, g.IsCallOf d e next ∧ g.LeadsWithin (depth - 1) next := by
  rw [definition?_eq] at hd
  constructor
  · rintro ⟨rest, hlength, hchain⟩
    cases rest with
    | nil =>
      obtain ⟨d', hd', e, he, hforbidden⟩ := chain_nil_iff.1 hchain
      cases hd.symm.trans hd'
      exact ⟨e, he, .inl hforbidden⟩
    | cons key rest =>
      obtain ⟨⟨d', hd', e, he, next, hcall, rfl⟩, hrest⟩ := chain_cons_iff.1 hchain
      cases hd.symm.trans hd'
      rw [List.length_cons] at hlength
      exact ⟨e, he, .inr ⟨next, hcall, rest, by omega, hrest⟩⟩
  · rintro ⟨e, he, hforbidden | ⟨next, hcall, rest, hlength, hrest⟩⟩
    · exact ⟨[], hdepth, chain_nil_iff.2 ⟨d, hd, e, he, hforbidden⟩⟩
    · refine ⟨next.lookupKey :: rest, ?_, chain_cons_iff.2 ⟨⟨d, hd, e, he, next, hcall, rfl⟩, hrest⟩⟩
      rw [List.length_cons]
      omega

/-- The expression calls a method by its name on `$this` or on `static`. -/
inductive CallsReceiver (e : Node) : String → Prop where
  | this (object method : Node) (kind : e.unwrap.kind = .memberCallExpression)
      (on : e.unwrap.child? .object = some object) (this : object.plainVariable? = some "this")
      (calls : e.unwrap.child? .name = some method) (named : method.kind = .name) :
      CallsReceiver e method.text
  | static (scope method : Node) (kind : e.unwrap.kind = .scopedCallExpression)
      (on : e.unwrap.child? .scope = some scope)
      (static : Text.lower (Text.strip scope.text) = "static")
      (calls : e.unwrap.child? .name = some method) (named : method.kind = .name) :
      CallsReceiver e method.text

theorem scopeClass_static {scope : Node} {currentClass : String} {names : Names}
    (h : Text.lower (Text.strip scope.text) = "static") :
    g.scopeClass (some scope) currentClass names = currentClass := by
  simp [scopeClass, h]

namespace CallsReceiver

theorem isCallOf (h : CallsReceiver e n) (hclass : d.className ≠ "") :
    g.IsCallOf d e (.method d.className n) := by
  cases h with
  | this object method kind on this calls named =>
    exact .member object method kind on this calls named hclass
  | static scope method kind on static calls named =>
    refine .static method d.className kind calls named ?_ hclass
    rw [on, scopeClass_static static]

/-- The receiver is taken to be an object of the class that declares the method. -/
theorem target_eq (h : CallsReceiver e n) (hcall : g.IsCallOf d e t) :
    d.className ≠ "" ∧ t = .method d.className n := by
  cases h with
  | this object method kind on this calls named =>
    cases hcall with
    | function fn name kind' => cases kind.symm.trans kind'
    | static method' className kind' => cases kind.symm.trans kind'
    | member object' method' kind' on' this' calls' named' inside =>
      cases calls.symm.trans calls'
      exact ⟨inside, rfl⟩
  | static scope method kind on static calls named =>
    cases hcall with
    | function fn name kind' => cases kind.symm.trans kind'
    | member object method' kind' => cases kind.symm.trans kind'
    | static method' className kind' calls' named' scope' known =>
      cases calls.symm.trans calls'
      rw [on, scopeClass_static static] at scope'
      subst scope'
      exact ⟨known, rfl⟩

theorem not_isForbidden (h : CallsReceiver e n) : ¬ g.IsForbidden d e := by
  intro hforbidden
  have hkind : e.unwrap.kind = .memberCallExpression ∨ e.unwrap.kind = .scopedCallExpression := by
    cases h with
    | this object method kind => exact .inl kind
    | static scope method kind => exact .inr kind
  cases hforbidden with
  | literal s spells =>
    have hnone : e.unwrap.literal? = none := by
      obtain kind | kind := hkind
      · exact unwrap_literal?_of_kind kind rfl
      · exact unwrap_literal?_of_kind kind rfl
    cases hnone.symm.trans spells
  | creation cls kind =>
    rw [kind] at hkind
    obtain hkind | hkind := hkind <;> cases hkind
  | call fn kind =>
    rw [kind] at hkind
    obtain hkind | hkind := hkind <;> cases hkind

end CallsReceiver

/-- A method, as a class finds it, returns a call of another one on its receiver, and what the class
finds there returns something forbidden. Whether the method leads to something forbidden is decided
by what its declaring class finds instead, and by its other returns; it does if both classes find
the same. -/
theorem receiver_call_decided_by_declaring_class (hg : g.PlainKeys) (hdepth : 1 ≤ g.maxDepth)
    {c m : String} {own : Definition} (found : g.findMethod c m = some d) (he : e ∈ d.returns)
    (calls : CallsReceiver e n) (selected : g.findMethod c n = some own)
    (forbidden : ∃ r ∈ own.returns, g.IsForbidden own r) :
    (g.chainsToForbidden (.method c m) = true ↔
      (d.className ≠ "" ∧ g.LeadsWithin (g.maxDepth - 1) (.method d.className n)) ∨
        ∃ r ∈ d.returns, r ≠ e ∧ (g.IsForbidden d r ∨
          ∃ next, g.IsCallOf d r next ∧ g.LeadsWithin (g.maxDepth - 1) next)) ∧
    (d.className ≠ "" → g.findMethod d.className n = g.findMethod c n →
      g.chainsToForbidden (.method c m) = true) := by
  have hleads : g.chainsToForbidden (.method c m) = true ↔ ∃ r ∈ d.returns, g.IsForbidden d r ∨
      ∃ next, g.IsCallOf d r next ∧ g.LeadsWithin (g.maxDepth - 1) next := by
    rw [hg.chainsToForbidden_iff]
    exact leadsWithin_iff found (by omega)
  constructor
  · rw [hleads]
    constructor
    · rintro ⟨r, hr, hleads⟩
      -- The call itself leads to one target only, whatever class was asked about.
      by_cases hre : r = e
      · subst hre
        obtain hforbidden | ⟨next, hcall, hnext⟩ := hleads
        · exact absurd hforbidden calls.not_isForbidden
        · obtain ⟨hclass, rfl⟩ := calls.target_eq hcall
          exact .inl ⟨hclass, hnext⟩
      · exact .inr ⟨r, hr, hre, hleads⟩
    · rintro (⟨hclass, hnext⟩ | ⟨r, hr, -, hleads⟩)
      · exact ⟨e, he, .inr ⟨_, calls.isCallOf hclass, hnext⟩⟩
      · exact ⟨r, hr, hleads⟩
  · intro hclass hsame
    rw [hleads]
    obtain ⟨r, hr, hforbidden⟩ := forbidden
    have hdefinition : g.definition? (.method d.className n) = some own := hsame.trans selected
    have hnext : g.LeadsWithin (g.maxDepth - 1) (.method d.className n) :=
      (leadsWithin_iff hdefinition (by omega)).2 ⟨r, hr, .inl hforbidden⟩
    exact ⟨e, he, .inr ⟨_, calls.isCallOf hclass, hnext⟩⟩

section Programs

/-- The expression `$this->n()`. -/
def receiverCall : Node :=
  .mk .memberCallExpression none 0 0 1 "$this->n()"
    [.mk .variableName (some .object) 0 0 1 "$this" [], word (some .name) 1 "n"]

def okLiteral : Node :=
  .mk .string none 0 0 1 "'ok'" []

def methodReturning (name : String) (e : Node) : Node :=
  declaration .methodDeclaration 1 name [block .compoundStatement 1 [Php.returning 1 e]]

/-- The script `class P { function m() { return $this->n(); } function n() { return ...; } }
class C extends \P { ... }`. -/
def inheriting (inherited : Node) (members : List Node) : Script where
  path := "a.php"
  source := .ofBytes ByteArray.empty
  names := default
  root := .mk .program none 0 0 1 ""
    [declaration .classDeclaration 1 "P"
      [block .declarationList 1 [methodReturning "m" receiverCall, methodReturning "n" inherited]],
    declaration .classDeclaration 2 "C"
      [.mk .baseClause none 0 0 2 "" [.mk .qualifiedName none 0 0 2 "\\P" []],
        block .declarationList 2 members]]

def methodOf (cls name : String) (e : Node) : Definition :=
  ⟨name, methodReturning name e, "a.php", default, cls⟩

/-- The call graph of such a script, from what the class `C` declares. -/
def inheritingGraph (inherited : Node) (declared : Table Definition) : CallGraph where
  policy := evalPolicy
  maxDepth := 5
  functions := []
  methods := [("p", [("m", methodOf "p" "m" receiverCall), ("n", methodOf "p" "n" inherited)]),
    ("c", declared)]
  parents := [("c", "p")]
  traits := []

theorem ofScripts_inheriting :
    ofScripts evalPolicy 5 [inheriting evalLiteral []] = inheritingGraph evalLiteral [] := by
  cbv

theorem ofScripts_overriding :
    ofScripts evalPolicy 5 [inheriting okLiteral [methodReturning "n" evalLiteral]] =
      inheritingGraph okLiteral [("n", methodOf "c" "n" evalLiteral)] := by
  cbv

theorem lower_keys : classKey "p" = "p" ∧ Text.lower "n" = "n" ∧ Text.lower "m" = "m" ∧
    classKey "C" = "c" := by
  refine ⟨?_, ?_, ?_, ?_⟩ <;> cbv

theorem callsReceiver_receiverCall : CallsReceiver receiverCall "n" :=
  .this (.mk .variableName (some .object) 0 0 1 "$this" []) (word (some .name) 1 "n")
    rfl rfl (by decide) rfl rfl

theorem isForbidden_evalLiteral {cls name : String} (hg : g.policy = evalPolicy) :
    g.IsForbidden (methodOf cls name evalLiteral) evalLiteral := by
  have hforbidden : evalPolicy.isForbiddenName "eval" = true := by cbv
  exact .literal "eval" (by decide) (hg ▸ hforbidden)

/-- A class that inherits both methods finds the second where the first is declared. -/
theorem inherited_receiver_call_followed :
    let g := ofScripts evalPolicy 5 [inheriting evalLiteral []]
    g.PlainKeys ∧ 1 ≤ g.maxDepth ∧
      g.findMethod "C" "m" = some (methodOf "p" "m" receiverCall) ∧
      receiverCall ∈ (methodOf "p" "m" receiverCall).returns ∧ CallsReceiver receiverCall "n" ∧
      g.findMethod "C" "n" = some (methodOf "p" "n" evalLiteral) ∧
      (∃ r ∈ (methodOf "p" "n" evalLiteral).returns,
        g.IsForbidden (methodOf "p" "n" evalLiteral) r) ∧
      g.chainsToForbidden (.method "C" "m") = true := by
  intro g
  have hg : g = inheritingGraph evalLiteral [] := ofScripts_inheriting
  have hplain : g.PlainKeys := by
    apply PlainKeys.ofScripts
    intro s hs
    obtain rfl := List.mem_singleton.1 hs
    exact ⟨by decide, by decide, by decide⟩
  have hdepth : 1 ≤ g.maxDepth := by
    rw [hg]
    decide
  have hfound : g.findMethod "C" "m" = some (methodOf "p" "m" receiverCall) := by
    rw [hg]
    simp only [findMethod, lower_keys]
    rfl
  have hreturns : receiverCall ∈ (methodOf "p" "m" receiverCall).returns :=
    List.mem_singleton_self receiverCall
  have hselected : g.findMethod "C" "n" = some (methodOf "p" "n" evalLiteral) := by
    rw [hg]
    simp only [findMethod, lower_keys]
    rfl
  have hdeclaring : g.findMethod "p" "n" = some (methodOf "p" "n" evalLiteral) := by
    rw [hg]
    simp only [findMethod, lower_keys]
    rfl
  have hforbidden : ∃ r ∈ (methodOf "p" "n" evalLiteral).returns,
      g.IsForbidden (methodOf "p" "n" evalLiteral) r :=
    ⟨evalLiteral, List.mem_singleton_self evalLiteral, isForbidden_evalLiteral (by rw [hg]; rfl)⟩
  have hchain := receiver_call_decided_by_declaring_class hplain hdepth hfound hreturns
    callsReceiver_receiverCall hselected hforbidden
  exact ⟨hplain, hdepth, hfound, hreturns, callsReceiver_receiverCall, hselected, hforbidden,
    hchain.2 (by decide) (hdeclaring.trans hselected.symm)⟩

/-- What a class overrides is not looked at in calls that it inherits. -/
theorem overriding_receiver_call_missed :
    let g := ofScripts evalPolicy 5 [inheriting okLiteral [methodReturning "n" evalLiteral]]
    g.findMethod "C" "m" = some (methodOf "p" "m" receiverCall) ∧
      receiverCall ∈ (methodOf "p" "m" receiverCall).returns ∧ CallsReceiver receiverCall "n" ∧
      g.findMethod "C" "n" = some (methodOf "c" "n" evalLiteral) ∧
      (∃ r ∈ (methodOf "c" "n" evalLiteral).returns,
        g.IsForbidden (methodOf "c" "n" evalLiteral) r) ∧
      g.chainsToForbidden (.method "C" "m") = false := by
  intro g
  have hg : g = inheritingGraph okLiteral [("n", methodOf "c" "n" evalLiteral)] :=
    ofScripts_overriding
  rw [hg]
  refine ⟨by cbv, List.mem_singleton_self receiverCall, callsReceiver_receiverCall, by cbv,
    ⟨evalLiteral, List.mem_singleton_self evalLiteral, isForbidden_evalLiteral rfl⟩, by cbv⟩

end Programs

end PluginAudit.Php.CallGraph
