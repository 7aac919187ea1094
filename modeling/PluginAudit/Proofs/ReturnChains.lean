import PluginAudit.Proofs.Declarations

namespace PluginAudit.Php

namespace CallGraph

/-- A function or a method, by the names under which it is looked up. -/
inductive Key where
  | function (name : String)
  | method (className name : String)
  deriving DecidableEq, Repr

/-- The key that a query for a target looks up. -/
def Target.lookupKey : Target → Key
  | .function name => .function (Text.lower (Text.trimLeft (· == '\\') (Text.strip name)))
  | .method className name => .method (classKey className) (Text.lower name)

/-- The text by which the search remembers a key. -/
def Key.written : Key → String
  | .function name => name
  | .method className name => className ++ "::" ++ name

def definitionOf? (g : CallGraph) : Key → Option Definition
  | .function name => g.functions.find? name
  | .method className name => g.searchMethod name [] g.searchBound [className]

theorem key_eq (t : Target) : t.key = t.lookupKey.written := by
  cases t <;> rfl

theorem definition?_eq (g : CallGraph) (t : Target) :
    g.definition? t = g.definitionOf? t.lookupKey := by
  cases t <;> rfl

/-- An expression that a definition returns is itself forbidden: it spells or calls a forbidden
function, or creates an object of a forbidden class. -/
inductive IsForbidden (g : CallGraph) (d : Definition) (e : Node) : Prop where
  | literal (s : String) (spells : e.unwrap.literal? = some s)
      (forbidden : g.policy.isForbiddenName s = true)
  | creation (cls : Node) (kind : e.unwrap.kind = .objectCreationExpression)
      (creates : e.unwrap.createdClass? = some cls) (named : cls.isName = true)
      (forbidden : g.policy.isForbiddenClass (d.names.resolveClass cls.text cls.start) = true)
  | call (fn : Node) (kind : e.unwrap.kind = .functionCallExpression)
      (calls : e.unwrap.callee? = some fn) (named : fn.isName = true)
      (forbidden : g.policy.isForbiddenName (d.names.globalFunction fn.text fn.start) = true)

/-- An expression that a definition returns calls a function of the graph, or a method on `$this`
or on a class before a double colon. -/
inductive IsCallOf (g : CallGraph) (d : Definition) (e : Node) : Target → Prop where
  | function (fn : Node) (name : String) (kind : e.unwrap.kind = .functionCallExpression)
      (calls : e.unwrap.callee? = some fn) (named : fn.isName = true)
      (resolves : g.resolveFunction (d.names.functionCandidates fn.text fn.start) = some name) :
      IsCallOf g d e (.function name)
  | member (object method : Node) (kind : e.unwrap.kind = .memberCallExpression)
      (on : e.unwrap.child? .object = some object) (this : object.plainVariable? = some "this")
      (calls : e.unwrap.child? .name = some method) (named : method.kind = .name)
      (inside : d.className ≠ "") :
      IsCallOf g d e (.method d.className method.text)
  | static (method : Node) (className : String) (kind : e.unwrap.kind = .scopedCallExpression)
      (calls : e.unwrap.child? .name = some method) (named : method.kind = .name)
      (scope : g.scopeClass (e.unwrap.child? .scope) d.className d.names = className)
      (known : className ≠ "") :
      IsCallOf g d e (.method className method.text)

/-- What an outcome tells of an expression. -/
def Outcome.Explained (g : CallGraph) (d : Definition) (e : Node) : Outcome → Prop
  | .forbidden => g.IsForbidden d e
  | .harmless => True
  | .follow t => g.IsCallOf d e t

theorem Outcome.explained_ofBool {g : CallGraph} {d : Definition} {e : Node} {b : Bool}
    (h : b = true → g.IsForbidden d e) : (Outcome.ofBool b).Explained g d e := by
  cases b with
  | true => exact h rfl
  | false => exact trivial

theorem explained_outcome (g : CallGraph) (d : Definition) (e : Node) :
    (g.outcome d e).Explained g d e := by
  unfold outcome
  dsimp only
  split
  next s hs => exact Outcome.explained_ofBool fun hb => .literal s hs hb
  next =>
    split
    next hk =>
      split
      next cls hc =>
        refine Outcome.explained_ofBool fun hb => ?_
        rw [Bool.and_eq_true] at hb
        exact .creation cls hk hc hb.1 hb.2
      next => trivial
    next hk =>
      split
      next => trivial
      next fn hc =>
        split
        next => trivial
        next hn =>
          have hn : fn.isName = true := by simpa using hn
          split
          next hf => exact .call fn hk hc hn hf
          next =>
            split
            next name hr => exact .function fn name hk hc hn hr
            next => trivial
    next hk =>
      split
      next method hthis hc =>
        obtain ⟨object, hon, hthis⟩ := Option.bind_eq_some_iff.mp hthis
        split
        next hb =>
          rw [Bool.and_eq_true, beq_iff_eq, bne_iff_ne] at hb
          exact .member object method hk hon hthis hc hb.1 hb.2
        next => trivial
      next => trivial
    next hk =>
      split
      next method hc =>
        split
        next hb =>
          rw [Bool.and_eq_true, beq_iff_eq, bne_iff_ne] at hb
          exact .static method _ hk hc hb.2 rfl hb.1
        next => trivial
      next => trivial
    next => trivial

/-- Every classification of a returned expression has its reason. -/
theorem outcome_cases (g : CallGraph) (d : Definition) (e : Node) :
    (g.outcome d e = .forbidden ∧ g.IsForbidden d e) ∨ g.outcome d e = .harmless ∨
      ∃ t, g.outcome d e = .follow t ∧ g.IsCallOf d e t := by
  have h := explained_outcome g d e
  cases ho : g.outcome d e with
  | forbidden =>
    rw [ho] at h
    exact .inl ⟨rfl, h⟩
  | harmless => exact .inr (.inl rfl)
  | follow t =>
    rw [ho] at h
    exact .inr (.inr ⟨t, rfl, h⟩)

/-- Only strings have a value; an expression of another kind is judged by its kind. -/
theorem unwrap_literal?_of_kind {e : Node} {k : Kind} (h : e.unwrap.kind = k)
    (hk : k.isString = false) : e.unwrap.literal? = none := by
  apply Node.literal?_of_not_string
  rw [Node.unwrap_unwrap, h, hk]

theorem outcome_of_isForbidden {g : CallGraph} {d : Definition} {e : Node}
    (h : g.IsForbidden d e) : g.outcome d e = .forbidden := by
  cases h with
  | literal s spells forbidden => simp [outcome, spells, forbidden, Outcome.ofBool]
  | creation cls kind creates named forbidden =>
    have hl := unwrap_literal?_of_kind kind rfl
    simp [outcome, hl, kind, creates, named, forbidden, Outcome.ofBool]
  | call fn kind calls named forbidden =>
    have hl := unwrap_literal?_of_kind kind rfl
    simp [outcome, hl, kind, calls, named, forbidden]

/-- A returned call is followed, unless what it calls is forbidden already. -/
theorem outcome_of_isCallOf {g : CallGraph} {d : Definition} {e : Node} {t : Target}
    (h : g.IsCallOf d e t) : g.outcome d e = .follow t ∨ g.outcome d e = .forbidden := by
  cases h with
  | function fn name kind calls named resolves =>
    have hl := unwrap_literal?_of_kind kind rfl
    by_cases hf : g.policy.isForbiddenName (d.names.globalFunction fn.text fn.start) = true
    · exact .inr (outcome_of_isForbidden (.call fn kind calls named hf))
    · left
      simp [outcome, hl, kind, calls, named, hf, resolves]
  | member object method kind on this calls named inside =>
    have hl := unwrap_literal?_of_kind kind rfl
    left
    simp [outcome, hl, kind, on, this, calls, named, inside]
  | static method className kind calls named scope known =>
    have hl := unwrap_literal?_of_kind kind rfl
    left
    simp [outcome, hl, kind, calls, named, scope, known]

/-- Something that the definition of the first key returns calls the second. -/
def ReturnsCall (g : CallGraph) (k next : Key) : Prop :=
  ∃ d, g.definitionOf? k = some d ∧ ∃ e ∈ d.returns, ∃ t, g.IsCallOf d e t ∧ t.lookupKey = next

/-- Something that the definition of the key returns is forbidden. -/
def ReturnsForbidden (g : CallGraph) (k : Key) : Prop :=
  ∃ d, g.definitionOf? k = some d ∧ ∃ e ∈ d.returns, g.IsForbidden d e

/-- A sequence of defined keys, each calling the next in what it returns, the last of which returns
something forbidden. -/
structure Chain (g : CallGraph) (k : Key) (rest : List Key) : Prop where
  defined : ∀ x ∈ k :: rest, (g.definitionOf? x).isSome = true
  calls : (k :: rest).IsChain g.ReturnsCall
  ends : g.ReturnsForbidden ((k :: rest).getLast (List.cons_ne_nil _ _))

variable {g : CallGraph} {k next x : Key} {rest : List Key}

theorem chain_nil_iff : g.Chain k [] ↔ g.ReturnsForbidden k := by
  constructor
  · exact fun h => h.ends
  · intro h
    obtain ⟨d, hd, _⟩ := id h
    exact ⟨by simp [hd], .singleton k, h⟩

theorem chain_cons_iff : g.Chain k (next :: rest) ↔ g.ReturnsCall k next ∧ g.Chain next rest := by
  constructor
  · intro h
    obtain ⟨hc, hr⟩ := List.isChain_cons_cons.mp h.calls
    exact ⟨hc, fun x hx => h.defined x (List.mem_cons_of_mem _ hx), hr, h.ends⟩
  · rintro ⟨hc, h⟩
    refine ⟨fun x hx => ?_, List.isChain_cons_cons.mpr ⟨hc, h.calls⟩, h.ends⟩
    rcases List.mem_cons.mp hx with rfl | hx
    · obtain ⟨d, hd, _⟩ := hc
      simp [hd]
    · exact h.defined x hx

/-- The search is right when it says yes: what it followed is a chain. -/
theorem exists_chain_of_reaches {steps : Nat} {visited : List String} {t : Target}
    (h : g.reaches steps visited t = true) :
    ∃ rest : List Key, rest.length < steps ∧ g.Chain t.lookupKey rest := by
  induction steps generalizing visited t with
  | zero => cases h
  | succ steps ih =>
    unfold reaches at h
    split at h
    next => cases h
    next =>
      split at h
      next => cases h
      next d hd =>
        rw [definition?_eq] at hd
        obtain ⟨e, he, ho⟩ := List.any_eq_true.mp h
        rcases g.outcome_cases d e with ⟨_, hf⟩ | hh | ⟨next, hn, hc⟩
        · exact ⟨[], Nat.succ_pos _, chain_nil_iff.mpr ⟨d, hd, e, he, hf⟩⟩
        · rw [hh] at ho
          cases ho
        · rw [hn] at ho
          obtain ⟨rest, hl, hr⟩ := ih ho
          exact ⟨next.lookupKey :: rest, Nat.succ_lt_succ hl,
            chain_cons_iff.mpr ⟨⟨d, hd, e, he, next, hc, rfl⟩, hr⟩⟩

/-- The search finds every chain that repeats no key and avoids those it has visited. -/
theorem reaches_of_chain {steps : Nat} {visited : List String} {t : Target}
    (hc : g.Chain t.lookupKey rest) (hl : rest.length < steps)
    (hn : ((t.lookupKey :: rest).map Key.written).Nodup)
    (hv : ∀ x ∈ t.lookupKey :: rest, x.written ∉ visited) : g.reaches steps visited t = true := by
  induction rest generalizing steps visited t with
  | nil =>
    obtain ⟨steps, rfl⟩ := Nat.exists_eq_succ_of_ne_zero (Nat.ne_of_gt hl)
    obtain ⟨d, hd, e, he, hf⟩ := chain_nil_iff.mp hc
    have ht : t.key ∉ visited := by
      rw [key_eq]
      exact hv _ (by simp)
    rw [← definition?_eq] at hd
    simp only [reaches, List.contains_iff_mem, ht, if_false, hd]
    exact List.any_eq_true.mpr ⟨e, he, by rw [outcome_of_isForbidden hf]⟩
  | cons next rest ih =>
    obtain ⟨steps, rfl⟩ := Nat.exists_eq_succ_of_ne_zero (Nat.ne_of_gt (Nat.zero_lt_of_lt hl))
    obtain ⟨⟨d, hd, e, he, u, hu, rfl⟩, hr⟩ := chain_cons_iff.mp hc
    have ht : t.key ∉ visited := by
      rw [key_eq]
      exact hv _ (by simp)
    rw [← definition?_eq] at hd
    simp only [reaches, List.contains_iff_mem, ht, if_false, hd]
    refine List.any_eq_true.mpr ⟨e, he, ?_⟩
    rcases outcome_of_isCallOf hu with ho | ho
    · rw [ho]
      rw [List.map_cons, List.nodup_cons] at hn
      apply ih hr (Nat.lt_of_succ_lt_succ hl) hn.2
      intro x hx
      rw [List.mem_cons, not_or, key_eq]
      refine ⟨fun hw => hn.1 ?_, hv x (List.mem_cons_of_mem _ hx)⟩
      rw [← hw]
      exact List.mem_map_of_mem hx
    · rw [ho]

theorem Chain.exists_from (h : g.Chain k rest) (hx : x ∈ k :: rest) :
    ∃ before after, k :: rest = before ++ x :: after ∧ g.Chain x after := by
  induction rest generalizing k with
  | nil =>
    obtain rfl := List.mem_singleton.mp hx
    exact ⟨[], [], rfl, h⟩
  | cons next rest ih =>
    rcases List.mem_cons.mp hx with rfl | hx
    · exact ⟨[], next :: rest, rfl, h⟩
    · obtain ⟨before, after, he, ha⟩ := ih (chain_cons_iff.mp h).2 hx
      exact ⟨k :: before, after, by rw [he]; rfl, ha⟩

/-- Where a chain comes back to a key, the part between can be left out. -/
theorem Chain.exists_nodup (h : g.Chain k rest) :
    ∃ rest' : List Key, rest'.length ≤ rest.length ∧ g.Chain k rest' ∧ (k :: rest').Nodup := by
  induction rest generalizing k with
  | nil => exact ⟨[], Nat.le_refl _, h, List.nodup_singleton k⟩
  | cons next rest ih =>
    obtain ⟨hc, hr⟩ := chain_cons_iff.mp h
    obtain ⟨rest', hl, hr', hn⟩ := ih hr
    by_cases hk : k ∈ next :: rest'
    · obtain ⟨before, after, he, ha⟩ := hr'.exists_from hk
      have hs : k :: after <:+ next :: rest' := ⟨before, he.symm⟩
      have hle := hs.length_le
      simp only [List.length_cons] at hle ⊢
      exact ⟨after, by omega, ha, hn.sublist hs.sublist⟩
    · exact ⟨next :: rest', Nat.succ_le_succ hl, chain_cons_iff.mpr ⟨hc, hr'⟩,
        List.nodup_cons.mpr ⟨hk, hn⟩⟩

theorem exists_table_of_searchMethod {method : String} {seen pending : List String} {fuel : Nat}
    {d : Definition} (h : g.searchMethod method seen fuel pending = some d) :
    ∃ cls table, g.methods.find? cls = some table ∧ table.find? method = some d := by
  fun_induction searchMethod g method seen fuel pending with
  | case1 => cases h
  | case2 => cases h
  | case3 seen fuel key pending hs ih => exact ih h
  | case4 seen fuel key pending hs d' hd =>
    cases ht : g.methods.find? key with
    | none => simp [ht] at hd
    | some table => exact ⟨key, table, ht, by simpa [ht, ← h] using hd⟩
  | case5 seen fuel key pending hs hd more ih => exact ih h

theorem eq_nil_of_scope_eq {x m n : List Char} (hm : ¬ [':', ':'] <:+: m) (hp : ¬ [':'] <+: m)
    (h : ':' :: ':' :: m = x ++ ':' :: ':' :: n) : x = [] ∧ m = n := by
  match x with
  | [] => exact ⟨rfl, by simpa using h⟩
  | [c] =>
    simp only [List.singleton_append, List.cons.injEq, true_and] at h
    exact absurd ⟨n, h.2.symm⟩ hp
  | c :: c' :: x =>
    simp only [List.cons_append, List.cons.injEq] at h
    exact absurd ⟨x, n, by simp [h.2.2]⟩ hm

/-- The last double colon of a method's key is the one before its name. -/
theorem method_written_inj {c c' m m' : String} (hm : IsMemberName m) (hm' : IsMemberName m')
    (h : (Key.method c m).written = (Key.method c' m').written) : c = c' ∧ m = m' := by
  have hl : c.toList ++ ':' :: ':' :: m.toList = c'.toList ++ ':' :: ':' :: m'.toList := by
    have := congrArg String.toList h
    simpa [Key.written] using this
  rcases List.append_eq_append_iff.mp hl with ⟨x, hc, hx⟩ | ⟨x, hc, hx⟩
  · obtain ⟨rfl, he⟩ := eq_nil_of_scope_eq hm.1 hm.2 hx
    exact ⟨(String.toList_inj.mp (by simpa using hc)).symm, String.toList_inj.mp he⟩
  · obtain ⟨rfl, he⟩ := eq_nil_of_scope_eq hm'.1 hm'.2 hx
    exact ⟨String.toList_inj.mp (by simpa using hc), (String.toList_inj.mp he).symm⟩

theorem function_written_ne_method {f c m : String} (hf : Unscoped f) :
    (Key.function f).written ≠ (Key.method c m).written := by
  intro h
  have hl : f.toList = c.toList ++ [':', ':'] ++ m.toList := by
    have := congrArg String.toList h
    simpa [Key.written] using this
  exact hf (hl ▸ List.infix_append _ _ _)

/-- Defined keys are remembered by different texts. -/
theorem PlainKeys.written_inj (hg : g.PlainKeys) (hk : (g.definitionOf? k).isSome = true)
    (hx : (g.definitionOf? x).isSome = true) (h : k.written = x.written) : k = x := by
  have member : ∀ {c m : String}, (g.definitionOf? (.method c m)).isSome = true →
      IsMemberName m := by
    intro c m hd
    obtain ⟨d, hd⟩ := Option.isSome_iff_exists.mp hd
    obtain ⟨cls, table, ht, hm⟩ := exists_table_of_searchMethod hd
    exact hg.methods cls table ht m d hm
  have function : ∀ {f : String}, (g.definitionOf? (.function f)).isSome = true →
      Unscoped f := by
    intro f hd
    obtain ⟨d, hd⟩ := Option.isSome_iff_exists.mp hd
    exact hg.functions f d hd
  cases k with
  | function f =>
    cases x with
    | function f' => exact congrArg Key.function h
    | method c m => exact absurd h (function_written_ne_method (function hk))
  | method c m =>
    cases x with
    | function f => exact absurd h.symm (function_written_ne_method (function hx))
    | method c' m' =>
      obtain ⟨rfl, rfl⟩ := method_written_inj (member hk) (member hx) h
      rfl

/-- A query says yes just when a chain of at most `maxDepth` calls leads from its key to a
definition that returns something forbidden: neither the record of visited keys nor the count of
steps cuts off a chain that the limit allows. -/
theorem chainsToForbidden_iff_chain (policy : Policy) (maxDepth : Int) (scripts : List Script)
    (plain : ∀ s ∈ scripts, s.PlainNames) (t : Target) :
    (ofScripts policy maxDepth scripts).chainsToForbidden t = true ↔
      ∃ rest : List Key, (rest.length : Int) ≤ maxDepth ∧
        (ofScripts policy maxDepth scripts).Chain t.lookupKey rest := by
  have hg : (ofScripts policy maxDepth scripts).PlainKeys := .ofScripts plain
  have hd : (ofScripts policy maxDepth scripts).maxDepth = maxDepth := ofScripts_maxDepth ..
  unfold chainsToForbidden
  rw [hd]
  constructor
  · intro h
    obtain ⟨rest, hl, hc⟩ := exists_chain_of_reaches h
    exact ⟨rest, by omega, hc⟩
  · rintro ⟨rest, hl, hc⟩
    obtain ⟨rest', hl', hc', hn⟩ := hc.exists_nodup
    apply reaches_of_chain hc' (by omega)
    · apply hn.map_on
      intro x hx y hy
      exact hg.written_inj (hc'.defined x hx) (hc'.defined y hy)
    · simp

end CallGraph

/-- The policy that forbids `eval` and nothing else. -/
def evalPolicy : Policy :=
  { (default : Policy) with forbiddenFunctions := ["eval"] }

namespace CallGraph

/-- A function without parameters that returns one expression after the other. -/
def returning (name : String) (values : List Node) : Node :=
  .mk .functionDefinition none 0 1 1 "" [
    .mk .name (some .name) 0 1 1 name [],
    .mk .compoundStatement (some .body) 0 1 1 ""
      (values.map fun v => .mk .returnStatement none 0 1 1 "" [v])]

def callTo (name : String) : Node :=
  .mk .functionCallExpression none 0 1 1 "" [.mk .name (some .callee) 0 1 1 name []]

def evalText : Node :=
  .mk .string none 0 1 1 "'eval'" []

/-- Two functions that call each other; one of them also returns a name. -/
def twoFunctions : Script where
  path := "a.php"
  source := ⟨.empty, #[]⟩
  root := .mk .program none 0 1 1 "" [
    returning "f" [callTo "f", callTo "g"],
    returning "g" [callTo "f", evalText]]
  names := ⟨[.empty 0 1 ""]⟩

theorem twoFunctions_plainNames : twoFunctions.PlainNames where
  namespaces := by decide
  functions := by decide
  methods := by decide

/-- The definition of one of the two functions. -/
def entryOf (name : String) (values : List Node) : Definition :=
  ⟨name, returning name values, twoFunctions.path, twoFunctions.names, ""⟩

theorem ofScripts_twoFunctions : ofScripts evalPolicy 1 [twoFunctions] =
    { empty evalPolicy 1 with
      functions := [("f", entryOf "f" [callTo "f", callTo "g"]),
        ("g", entryOf "g" [callTo "f", evalText])] } := by
  cbv

theorem functionCandidates_g : twoFunctions.names.functionCandidates "g" 0 = ["g"] := by
  have hstrip : Text.strip "g" = "g" := by decide +kernel
  have hstart : Text.startsWith "g" "\\" = false := by decide +kernel
  have hsplit : Names.splitFirst "g" = ("g", none) := by decide +kernel
  have hlower : Text.lower "g" = "g" := by cbv
  simp only [Names.functionCandidates, hstrip, hstart, hsplit, hlower]
  rfl

theorem lookupKey_f : (Target.function "\\F").lookupKey = .function "f" := by
  have hname : Text.trimLeft (· == '\\') (Text.strip "\\F") = "F" := by decide +kernel
  rw [Target.lookupKey, hname]
  cbv

theorem chain_twoFunctions :
    (ofScripts evalPolicy 1 [twoFunctions]).Chain (.function "f") [.function "g"] := by
  rw [ofScripts_twoFunctions, chain_cons_iff, chain_nil_iff]
  constructor
  · refine ⟨_, rfl, callTo "g", List.mem_cons_of_mem _ List.mem_cons_self, .function "g", ?_, by cbv⟩
    refine .function (.mk .name (some .callee) 0 1 1 "g" []) "g" rfl rfl rfl ?_
    change resolveFunction _ (twoFunctions.names.functionCandidates "g" 0) = some "g"
    rw [functionCandidates_g]
    rfl
  · refine ⟨_, rfl, evalText, List.mem_cons_of_mem _ List.mem_cons_self, ?_⟩
    have hforbidden : evalPolicy.isForbiddenName "eval" = true := by cbv
    exact .literal "eval" (by decide) hforbidden

/-- The calls of the two functions go round in a circle, and a chain of one call leads from the first
to the name that the second returns. -/
theorem twoFunctions_chains :
    (∀ s ∈ [twoFunctions], s.PlainNames) ∧
      (∃ rest : List Key, (rest.length : Int) ≤ 1 ∧
        (ofScripts evalPolicy 1 [twoFunctions]).Chain (Target.function "\\F").lookupKey rest) ∧
      (ofScripts evalPolicy 1 [twoFunctions]).chainsToForbidden (.function "\\F") = true := by
  have plain : ∀ s ∈ [twoFunctions], s.PlainNames := by
    intro s hs
    obtain rfl := List.mem_singleton.mp hs
    exact twoFunctions_plainNames
  have chain : ∃ rest : List Key, (rest.length : Int) ≤ 1 ∧
      (ofScripts evalPolicy 1 [twoFunctions]).Chain (Target.function "\\F").lookupKey rest := by
    rw [lookupKey_f]
    exact ⟨[.function "g"], by decide, chain_twoFunctions⟩
  exact ⟨plain, chain,
    (chainsToForbidden_iff_chain evalPolicy 1 [twoFunctions] plain (.function "\\F")).2 chain⟩

end CallGraph

end PluginAudit.Php
