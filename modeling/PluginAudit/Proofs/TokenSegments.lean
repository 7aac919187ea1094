import PluginAudit.Php.Tokens
import Mathlib

namespace PluginAudit.Php.Token

/-- `tokens` are `strings` with a dot between each two of them. -/
inductive Joins : List Token → List Token → Prop
  | one {t : Token} (ht : t.isString = true) : Joins [t] [t]
  | join {t dot : Token} {strings tokens : List Token} (ht : t.isString = true)
      (hdot : dot.text = ".") (hrest : Joins strings tokens) :
      Joins (t :: strings) (t :: dot :: tokens)

/-- A string behind these tokens is joined to the last of their strings. -/
def EndsJoining (before : List Token) : Prop :=
  ∃ front t dot, before = front ++ [t, dot] ∧ t.isString = true ∧ dot.text = "."

/-- These tokens join a string to one in front of them. -/
def StartsJoining (after : List Token) : Prop :=
  ∃ dot t rest, after = dot :: t :: rest ∧ dot.text = "." ∧ t.isString = true

/-- No string is spelled as a dot. -/
def DotsAreCode (ts : List Token) : Prop :=
  ∀ t ∈ ts, t.isString = true → t.text ≠ "."

theorem DotsAreCode.of_subset {ts us : List Token} (h : DotsAreCode ts) (hsub : us ⊆ ts) :
    DotsAreCode us :=
  fun t ht => h t (hsub ht)

/-- Strings joined by dots, and the tokens before and after them. -/
structure Segment where
  before : List Token
  strings : List Token
  after : List Token

/-- `g` is a segment of `ts`, and no other string of `ts` is joined to it. -/
structure Segment.IsMaximal (ts : List Token) (g : Segment) : Prop where
  split : ∃ tokens, Joins g.strings tokens ∧ ts = g.before ++ (tokens ++ g.after)
  opens : ¬ EndsJoining g.before
  closes : ¬ StartsJoining g.after

/-- The strings behind the last one that has code in it. -/
def literalTail (strings : List Token) : List Token :=
  strings.rtakeWhile (·.value.isSome)

/-- The value of strings that are all literals. -/
def joinedValue (strings : List Token) : String :=
  String.join (strings.filterMap (·.value))

/-- After any number of closing parentheses comes an opening one. -/
def Called (after : List Token) : Prop :=
  ∃ closing opening rest, after = closing ++ opening :: rest ∧ (∀ t ∈ closing, t.text = ")") ∧
    opening.text = "("

theorem isCalled_iff (after : List Token) : isCalled after = true ↔ Called after := by
  induction after with
  | nil =>
    constructor
    · intro h
      cases h
    · rintro ⟨closing, opening, rest, h, -⟩
      simp at h
  | cons t rest ih =>
    rw [isCalled]
    by_cases ht : t.text = ")"
    · simp only [ht, beq_self_eq_true, if_true, ih]
      constructor
      · rintro ⟨closing, opening, rest, rfl, hclosing, hopening⟩
        exact ⟨t :: closing, opening, rest, rfl, by simpa [ht] using hclosing, hopening⟩
      · rintro ⟨closing, opening, rest', h, hclosing, hopening⟩
        cases closing with
        | nil =>
          obtain ⟨rfl, rfl⟩ := List.cons.inj h
          rw [ht] at hopening
          exact absurd hopening (by decide)
        | cons u closing =>
          obtain ⟨rfl, rfl⟩ := List.cons.inj h
          exact ⟨closing, opening, rest', rfl, fun v hv => hclosing v (.tail _ hv), hopening⟩
    · simp only [beq_iff_eq, ht, if_false]
      constructor
      · intro hopening
        exact ⟨[], t, rest, rfl, by simp, hopening⟩
      · rintro ⟨closing, opening, rest', h, hclosing, hopening⟩
        cases closing with
        | nil =>
          obtain ⟨rfl, rfl⟩ := List.cons.inj h
          exact hopening
        | cons u closing =>
          obtain ⟨rfl, rfl⟩ := List.cons.inj h
          exact absurd (hclosing t (.head _)) ht

instance (after : List Token) : Decidable (Called after) :=
  decidable_of_iff _ (isCalled_iff after)

/-- What is reported of joined strings with the tokens `after` behind them. -/
def joinedUse? (unwanted : List String) (strings after : List Token) : Option Use :=
  let name := Text.lower (joinedValue (literalTail strings))
  if Called after ∧ name ∈ unwanted then
    (literalTail strings).head?.map fun first => ⟨name, .assembled, first.line⟩
  else none

/-- A token, with the tokens before and after it. -/
structure Place where
  before : List Token
  token : Token
  after : List Token

/-- At this place of `ts`, an unwanted function is called by its name. -/
structure Place.IsCall (unwanted : List String) (ts : List Token) (c : Place) : Prop where
  split : ts = c.before ++ c.token :: c.after
  code : c.token.isString = false
  name : isIdentifier c.token.text = true
  listed : Text.lower c.token.text ∈ unwanted
  called : ∃ opening rest, c.after = opening :: rest ∧ opening.text = "("
  free : ∀ p, c.before.getLast? = some p → Text.lower p.text ∉ declaring

/-- `xs` is everything that satisfies `p`, in the order of `start`. -/
structure InOrder {α : Type} (start : α → Nat) (p : α → Prop) (xs : List α) : Prop where
  sorted : xs.Pairwise fun x y => start x < start y
  mem_iff : ∀ x, x ∈ xs ↔ p x

section Segments

variable {strings tokens after : List Token}

theorem Joins.head (h : Joins strings tokens) :
    ∃ t rest, tokens = t :: rest ∧ t.isString = true := by
  cases h with
  | one ht => exact ⟨_, _, rfl, ht⟩
  | join ht hdot hrest => exact ⟨_, _, rfl, ht⟩

theorem Joins.last (h : Joins strings tokens) :
    ∃ front t, tokens = front ++ [t] ∧ t.isString = true := by
  induction h with
  | @one t ht => exact ⟨[], t, rfl, ht⟩
  | @join t dot strings tokens ht hdot hrest ih =>
    obtain ⟨front, u, rfl, hu⟩ := ih
    exact ⟨t :: dot :: front, u, rfl, hu⟩

theorem Joins.getLast?_append (h : Joins strings tokens) (pre : List Token) :
    (pre ++ tokens).getLast? = tokens.getLast? := by
  obtain ⟨t, rest, rfl, -⟩ := h.head
  exact List.getLast?_append_of_ne_nil pre (List.cons_ne_nil t rest)

/-- From a string on, the tokens begin with a segment that goes on as long as it can. -/
theorem exists_joins (t : Token) (rest : List Token) (ht : t.isString = true) :
    ∃ strings tokens after, Joins strings tokens ∧ t :: rest = tokens ++ after ∧
      ¬ StartsJoining after := by
  by_cases h : StartsJoining rest
  · obtain ⟨dot, u, more, rfl, hdot, hu⟩ := h
    obtain ⟨strings, tokens, after, hjoins, heq, hcloses⟩ := exists_joins u more hu
    refine ⟨t :: strings, t :: dot :: tokens, after, .join ht hdot hjoins, ?_, hcloses⟩
    rw [heq]
    rfl
  · exact ⟨[t], [t], rest, .one ht, rfl, h⟩
termination_by rest.length

theorem Joins.unique {strings' tokens' after' : List Token} (h : Joins strings tokens)
    (h' : Joins strings' tokens') (heq : tokens ++ after = tokens' ++ after')
    (hcloses : ¬ StartsJoining after) (hcloses' : ¬ StartsJoining after') :
    strings = strings' ∧ tokens = tokens' := by
  induction h generalizing strings' tokens' with
  | @one t ht =>
    cases h' with
    | one ht' =>
      obtain ⟨rfl, -⟩ := List.cons.inj heq
      exact ⟨rfl, rfl⟩
    | join ht' hdot' hrest' =>
      obtain ⟨u, more, rfl, hu⟩ := hrest'.head
      exact absurd ⟨_, u, _, (List.cons.inj heq).2, hdot', hu⟩ hcloses
  | @join t dot strings tokens ht hdot hrest ih =>
    cases h' with
    | one ht' =>
      obtain ⟨u, more, rfl, hu⟩ := hrest.head
      exact absurd ⟨_, u, _, (List.cons.inj heq).2.symm, hdot, hu⟩ hcloses'
    | join ht' hdot' hrest' =>
      simp only [List.cons_append, List.cons.injEq] at heq
      obtain ⟨rfl, rfl, heq⟩ := heq
      obtain ⟨rfl, rfl⟩ := ih hrest' heq
      exact ⟨rfl, rfl⟩

/-- A later string of a segment stands behind a string and a dot. -/
theorem Joins.endsJoining (h : Joins strings tokens)
    (hdots : DotsAreCode tokens) {front back : List Token} {u : Token}
    (heq : tokens = front ++ u :: back) (hu : u.isString = true) (hfront : front ≠ []) :
    EndsJoining front := by
  induction h generalizing front with
  | @one t ht =>
    cases front with
    | nil => exact absurd rfl hfront
    | cons w front => simp at heq
  | @join t dot strings tokens ht hdot hrest ih =>
    obtain _ | ⟨w, _ | ⟨w', front⟩⟩ := front
    · exact absurd rfl hfront
    · obtain ⟨rfl, rfl, rfl⟩ : t = w ∧ dot = u ∧ tokens = back := by simpa using heq
      exact absurd hdot (hdots dot (by simp) hu)
    · obtain ⟨rfl, rfl, htokens⟩ : t = w ∧ dot = w' ∧ tokens = front ++ u :: back := by
        simpa using heq
      by_cases hnil : front = []
      · exact ⟨[], t, dot, by rw [hnil]; rfl, ht, hdot⟩
      · have hdots' : DotsAreCode tokens := hdots.of_subset fun v hv => .tail _ (.tail _ hv)
        obtain ⟨front', v, dot', rfl, hv⟩ := ih hdots' htokens hnil
        exact ⟨t :: dot :: front', v, dot', rfl, hv⟩

/-- The tokens as the scan takes them: one by one, but a segment at once. -/
inductive Blocks : List Token → Prop
  | nil : Blocks []
  | code {t : Token} {rest : List Token} (ht : t.isString = false) (h : Blocks rest) :
      Blocks (t :: rest)
  | segment {strings tokens after : List Token} (hjoins : Joins strings tokens)
      (hcloses : ¬ StartsJoining after) (h : Blocks after) : Blocks (tokens ++ after)

theorem blocks (ts : List Token) : Blocks ts := by
  induction hn : ts.length using Nat.strongRecOn generalizing ts with
  | ind n ih =>
    cases ts with
    | nil => exact .nil
    | cons t rest =>
      by_cases ht : t.isString = true
      · obtain ⟨strings, tokens, after, hjoins, heq, hcloses⟩ := exists_joins t rest ht
        rw [heq]
        apply Blocks.segment hjoins hcloses
        obtain ⟨u, more, rfl, -⟩ := hjoins.head
        have hlength := congrArg List.length heq
        rw [List.length_append, List.length_cons, List.length_cons] at hlength
        exact ih after.length (by rw [← hn, List.length_cons]; omega) after rfl
      · have hcode : t.isString = false := by simpa using ht
        have hlength : rest.length < n := by
          rw [← hn]
          exact Nat.lt_succ_self _
        exact .code hcode (ih rest.length hlength rest rfl)

end Segments

section Scan

variable {strings tokens after : List Token}

theorem literalTail_of_all (h : ∀ t ∈ strings, t.value.isSome = true) :
    literalTail strings = strings :=
  List.rtakeWhile_eq_self_iff.2 h

/-- The strings before one with code in it do not matter. -/
theorem literalTail_cons {t : Token} (h : ∃ u ∈ t :: strings, u.value = none) :
    literalTail (t :: strings) = literalTail strings := by
  rw [literalTail, List.rtakeWhile, List.reverse_cons, List.takeWhile_append]
  split
  case isFalse => rfl
  case isTrue hall =>
    have hstrings : ∀ u ∈ strings, u.value.isSome = true := by
      have := (List.takeWhile_sublist _).eq_of_length hall
      rw [List.takeWhile_eq_self_iff] at this
      simpa using this
    have ht : t.value.isSome = false := by
      obtain ⟨u, hu, hnone⟩ := h
      obtain rfl | hu := List.mem_cons.1 hu
      · rw [hnone]
        rfl
      · have := hstrings u hu
        rw [hnone] at this
        cases this
    rw [literalTail_of_all hstrings]
    simp [ht]

theorem stringRun_join {t dot : Token} {v : String} (hv : t.value = some v) (hdot : dot.text = ".")
    (h : Joins strings tokens) (joined : String) :
    stringRun joined (t :: dot :: (tokens ++ after)) =
      stringRun (joined ++ v) (tokens ++ after) := by
  obtain ⟨u, more, rfl, hu⟩ := h.head
  rw [stringRun]
  simp [hv, hdot, hu]

theorem stringRun_single {t : Token} {v : String} (hv : t.value = some v)
    (hcloses : ¬ StartsJoining after) (joined : String) :
    stringRun joined (t :: after) = ⟨some (joined ++ v), t.text, after⟩ := by
  rw [stringRun.eq_def]
  dsimp only
  rw [hv]
  obtain _ | ⟨dot, _ | ⟨u, more⟩⟩ := after
  · rfl
  · rfl
  · have hjoin : ¬ (dot.text = "." ∧ u.isString = true) := fun h =>
      hcloses ⟨dot, u, more, rfl, h⟩
    simp [hjoin]

theorem stringRun_none {t : Token} (hv : t.value = none) (rest : List Token) (joined : String) :
    stringRun joined (t :: rest) = ⟨none, t.text, rest⟩ := by
  rw [stringRun.eq_def]
  dsimp only
  rw [hv]

theorem stringRun_literals (h : Joins strings tokens) (hcloses : ¬ StartsJoining after)
    (hall : ∀ t ∈ strings, t.value.isSome = true) (joined : String) :
    ∃ last, tokens.getLast?.map (·.text) = some last ∧
      stringRun joined (tokens ++ after) = ⟨some (joined ++ joinedValue strings), last, after⟩ := by
  induction h generalizing joined with
  | @one t ht =>
    obtain ⟨v, hv⟩ := Option.isSome_iff_exists.1 (hall t (.head _))
    refine ⟨t.text, rfl, ?_⟩
    rw [List.singleton_append, stringRun_single hv hcloses]
    simp [joinedValue, hv, String.join]
  | @join t dot strings tokens ht hdot hrest ih =>
    obtain ⟨v, hv⟩ := Option.isSome_iff_exists.1 (hall t (.head _))
    obtain ⟨last, hlast, hrun⟩ := ih (fun u hu => hall u (.tail _ hu)) (joined ++ v)
    refine ⟨last, ?_, ?_⟩
    · rw [← hlast]
      exact congrArg _ (hrest.getLast?_append [t, dot])
    · rw [List.cons_append, List.cons_append, stringRun_join hv hdot hrest, hrun]
      simp [joinedValue, hv, String.append_assoc]

/-- A string with code in it ends the reading, whatever was read before. -/
theorem stringRun_code (h : Joins strings tokens) (hcode : ∃ t ∈ strings, t.value = none) :
    ∃ last rest, ∀ joined, stringRun joined (tokens ++ after) = ⟨none, last, rest⟩ := by
  induction h with
  | @one t ht =>
    have hv : t.value = none := by simpa using hcode
    exact ⟨t.text, after, fun joined => stringRun_none hv after joined⟩
  | @join t dot strings tokens ht hdot hrest ih =>
    cases hv : t.value with
    | none => exact ⟨t.text, dot :: (tokens ++ after), fun joined => stringRun_none hv _ joined⟩
    | some v =>
      have hlater : ∃ u ∈ strings, u.value = none := by simpa [hv] using hcode
      obtain ⟨last, rest, hrun⟩ := ih hlater
      refine ⟨last, rest, fun joined => ?_⟩
      rw [List.cons_append, List.cons_append, stringRun_join hv hdot hrest, hrun]

variable {unwanted : List String} {previous : Option String}

theorem uses_code {t : Token} {rest : List Token} (ht : t.isString = true) {last : String}
    {later : List Token} (hrun : stringRun "" (t :: rest) = ⟨none, last, later⟩) :
    uses unwanted previous (t :: rest) = uses unwanted (some last) later := by
  rw [uses]
  simp only [ht, if_true, hrun]

theorem uses_dot {dot : Token} (hdot : dot.text = ".") (hcode : dot.isString = false)
    (rest : List Token) :
    uses unwanted previous (dot :: rest) = uses unwanted (some dot.text) rest := by
  have hname : isIdentifier dot.text = false := by
    rw [hdot]
    decide
  rw [uses]
  simp [hcode, hname]

theorem uses_literals (h : Joins strings tokens) (hcloses : ¬ StartsJoining after)
    (hall : ∀ t ∈ strings, t.value.isSome = true) :
    uses unwanted previous (tokens ++ after) =
      (joinedUse? unwanted strings after).toList ++
        uses unwanted (tokens.getLast?.map (·.text)) after := by
  obtain ⟨last, hlast, hrun⟩ := stringRun_literals h hcloses hall ""
  have hhead : ∃ t rest more, tokens = t :: rest ∧ t.isString = true ∧ strings = t :: more := by
    cases h with
    | one ht => exact ⟨_, _, _, rfl, ht, rfl⟩
    | join ht hdot hrest => exact ⟨_, _, _, rfl, ht, rfl⟩
  obtain ⟨t, rest, more, rfl, ht, rfl⟩ := hhead
  rw [List.cons_append] at hrun ⊢
  rw [hlast, uses, joinedUse?, literalTail_of_all hall]
  simp only [ht, if_true, hrun, String.empty_append, ← isCalled_iff]
  by_cases hused : isCalled after = true ∧ Text.lower (joinedValue (t :: more)) ∈ unwanted
  · simp [hused]
  · simp [hused]

/-- The scan takes a segment at once: it reports the strings behind the last one with code in it. -/
theorem uses_segment (h : Joins strings tokens) (hcloses : ¬ StartsJoining after)
    (hdots : DotsAreCode tokens) :
    uses unwanted previous (tokens ++ after) =
      (joinedUse? unwanted strings after).toList ++
        uses unwanted (tokens.getLast?.map (·.text)) after := by
  by_cases hall : ∀ t ∈ strings, t.value.isSome = true
  · exact uses_literals h hcloses hall
  have hcode : ∃ t ∈ strings, t.value = none := by simpa using hall
  induction h generalizing previous with
  | @one t ht =>
    have hv : t.value = none := by simpa using hcode
    have htail : literalTail [t] = [] := by simp [literalTail, hv]
    rw [List.singleton_append, uses_code ht (stringRun_none hv after "")]
    simp [joinedUse?, htail]
  | @join t dot strings tokens ht hdot hrest ih =>
    have hdots' : DotsAreCode tokens := hdots.of_subset fun u hu => .tail _ (.tail _ hu)
    have hlast : (t :: dot :: tokens).getLast? = tokens.getLast? := hrest.getLast?_append [t, dot]
    have hjoined :
        joinedUse? unwanted (t :: strings) after = joinedUse? unwanted strings after := by
      rw [joinedUse?, joinedUse?, literalTail_cons hcode]
    rw [hlast, hjoined, List.cons_append, List.cons_append]
    cases hv : t.value with
    | none =>
      have hdotCode : dot.isString = false := by
        by_contra hstring
        exact hdots dot (.tail _ (.head _)) (by simpa using hstring) hdot
      -- The scan stops behind `t` and takes the rest of the segment for one of its own.
      rw [uses_code ht (stringRun_none hv _ ""), uses_dot hdot hdotCode]
      by_cases hall' : ∀ u ∈ strings, u.value.isSome = true
      · exact uses_literals hrest hcloses hall'
      · exact ih hdots' hall' (by simpa using hall')
    | some v =>
      have hlater : ∃ u ∈ strings, u.value = none := by simpa [hv] using hcode
      have hall' : ¬ ∀ u ∈ strings, u.value.isSome = true := by simpa using hlater
      obtain ⟨last, rest, hrun⟩ := @stringRun_code strings tokens after hrest hlater
      -- The run from `t` on and the one from the next string on stop at the same place.
      have hskip : uses unwanted previous (tokens ++ after) = uses unwanted (some last) rest := by
        have hrun' := hrun ""
        obtain ⟨u, more, rfl, hu⟩ := hrest.head
        exact uses_code hu hrun'
      have hrun' : stringRun "" (t :: dot :: (tokens ++ after)) = ⟨none, last, rest⟩ := by
        rw [stringRun_join hv hdot hrest, hrun]
      rw [uses_code ht hrun', ← hskip]
      exact ih hdots' hall' hlater

end Scan

section Listing

variable {α : Type} {start : α → Nat} {p q : α → Prop} {x : α} {xs : List α} {m : Nat}

theorem InOrder.congr (h : InOrder start p xs) (hiff : ∀ y, q y ↔ p y) : InOrder start q xs where
  sorted := h.sorted
  mem_iff y := by rw [h.mem_iff, hiff]

/-- The list may begin earlier, where nothing more is met. -/
theorem InOrder.skip {n : Nat} (h : InOrder start (fun y => p y ∧ m ≤ start y) xs) (hle : n ≤ m)
    (hlater : ∀ y, p y → n ≤ start y → m ≤ start y) :
    InOrder start (fun y => p y ∧ n ≤ start y) xs :=
  h.congr fun y => and_congr_right fun hy => ⟨hlater y hy, hle.trans⟩

/-- The list may begin earlier, with the one thing that is met there. -/
theorem InOrder.cons (h : InOrder start (fun y => p y ∧ m ≤ start y) xs) (hx : p x)
    (hlt : start x < m) (hcases : ∀ y, p y → start x ≤ start y → y = x ∨ m ≤ start y) :
    InOrder start (fun y => p y ∧ start x ≤ start y) (x :: xs) where
  sorted := by
    refine List.pairwise_cons.2 ⟨fun y hy => ?_, h.sorted⟩
    exact Nat.lt_of_lt_of_le hlt ((h.mem_iff y).1 hy).2
  mem_iff y := by
    rw [List.mem_cons, h.mem_iff]
    constructor
    · rintro (rfl | ⟨hy, hlater⟩)
      · exact ⟨hx, Nat.le_refl _⟩
      · exact ⟨hy, hlt.le.trans hlater⟩
    · rintro ⟨hy, hstart⟩
      exact (hcases y hy hstart).imp_right fun hlater => ⟨hy, hlater⟩

end Listing

section Places

variable {unwanted : List String} {pre ts tokens after : List Token}

/-- A token behind `pre` is one of `tokens`, or stands behind them. -/
theorem place_cases {before back : List Token} {u : Token}
    (heq : pre ++ (tokens ++ after) = before ++ u :: back) (hle : pre.length ≤ before.length) :
    (pre ++ tokens).length ≤ before.length ∨
      ∃ front rest, before = pre ++ front ∧ tokens = front ++ u :: rest ∧ back = rest ++ after := by
  obtain ⟨front, rfl⟩ : pre <+: before := by
    have hpre : pre <+: before ++ u :: back := heq ▸ List.prefix_append _ _
    exact List.prefix_of_prefix_length_le hpre (List.prefix_append _ _) hle
  have hinner : tokens ++ after = front ++ u :: back := by simpa using heq
  obtain ⟨more, rfl, h⟩ | ⟨more, rfl, h⟩ := List.append_eq_append_iff.1 hinner
  · left
    simp
  · cases more with
    | nil =>
      left
      simp
    | cons w rest =>
      obtain ⟨rfl, rfl⟩ := List.cons.inj h
      exact .inr ⟨front, rest, rfl, rfl, rfl⟩

/-- What is reported of a place. -/
def Place.use (c : Place) : Use :=
  ⟨Text.lower c.token.text, .direct, c.token.line⟩

theorem canBeCalledAfter_iff (previous : Option Token) :
    canBeCalledAfter (previous.map (·.text)) = true ↔
      ∀ p, previous = some p → Text.lower p.text ∉ declaring := by
  cases previous <;> simp [canBeCalledAfter]

open Classical in
theorem uses_token {t : Token} {rest : List Token} (ht : t.isString = false) :
    uses unwanted (pre.getLast?.map (·.text)) (t :: rest) =
      (if Place.IsCall unwanted (pre ++ t :: rest) ⟨pre, t, rest⟩ then [Place.use ⟨pre, t, rest⟩]
        else []) ++ uses unwanted (some t.text) rest := by
  have hcall : Place.IsCall unwanted (pre ++ t :: rest) ⟨pre, t, rest⟩ ↔
      (isIdentifier t.text && unwanted.contains (Text.lower t.text) &&
        (rest.head?.any fun next => next.text == "(") &&
        canBeCalledAfter (pre.getLast?.map (·.text))) = true := by
    rw [Bool.and_eq_true, Bool.and_eq_true, Bool.and_eq_true, canBeCalledAfter_iff]
    constructor
    · intro h
      obtain ⟨opening, more, hrest, hopening⟩ := h.called
      dsimp only at hrest
      exact ⟨⟨⟨h.name, by simpa using h.listed⟩, by simp [hrest, hopening]⟩, h.free⟩
    · rintro ⟨⟨⟨hname, hlisted⟩, hcalled⟩, hfree⟩
      cases rest with
      | nil => cases hcalled
      | cons opening more =>
        exact ⟨rfl, ht, hname, by simpa using hlisted, ⟨opening, more, rfl, by simpa using hcalled⟩,
          hfree⟩
  rw [uses, if_neg (by simp [ht]), if_congr hcall rfl rfl]
  dsimp only
  split <;> rfl

theorem Joins.mem {strings : List Token} (h : Joins strings tokens) {t : Token} (ht : t ∈ tokens) :
    t.isString = true ∨ t.text = "." := by
  induction h with
  | one hu =>
    obtain rfl := List.mem_singleton.1 ht
    exact .inl hu
  | join hu hdot hrest ih =>
    obtain rfl | ht := List.mem_cons.1 ht
    · exact .inl hu
    · obtain rfl | ht := List.mem_cons.1 ht
      · exact .inr hdot
      · exact ih ht

theorem Joins.not_isCall {strings : List Token} (h : Joins strings tokens) {c : Place}
    (hc : c.IsCall unwanted ts) : c.token ∉ tokens := by
  intro hmem
  obtain hstring | hdot := h.mem hmem
  · rw [hc.code] at hstring
    cases hstring
  · have hname := hc.name
    rw [hdot] at hname
    exact absurd hname (by decide)

theorem joinedUse?_style {strings : List Token} {u : Use}
    (h : u ∈ joinedUse? unwanted strings after) : u.style = .assembled := by
  rw [joinedUse?] at h
  split at h
  · obtain ⟨first, -, rfl⟩ := Option.map_eq_some_iff.1 h
    rfl
  · cases h

theorem filter_joinedUse?_direct (strings after : List Token) :
    (joinedUse? unwanted strings after).toList.filter (·.style == .direct) = [] := by
  rw [List.filter_eq_nil_iff]
  intro u hu
  rw [joinedUse?_style (Option.mem_toList.1 hu)]
  decide

theorem filter_joinedUse?_assembled (strings after : List Token) :
    (joinedUse? unwanted strings after).toList.filter (·.style == .assembled) =
      (joinedUse? unwanted strings after).toList := by
  rw [List.filter_eq_self]
  intro u hu
  rw [joinedUse?_style (Option.mem_toList.1 hu)]
  rfl

/-- The calls that start behind `pre`, in front of a token: the one there, and those behind it. -/
theorem Place.IsCall.cases {t : Token} {rest : List Token} {c : Place}
    (hc : c.IsCall unwanted (pre ++ t :: rest)) (hstart : pre.length ≤ c.before.length) :
    c = ⟨pre, t, rest⟩ ∨ (pre ++ [t]).length ≤ c.before.length := by
  obtain ⟨before, u, back⟩ := c
  have hsplit : pre ++ ([t] ++ rest) = before ++ u :: back := hc.split
  obtain hlater | ⟨front, more, rfl, hone, rfl⟩ := place_cases hsplit hstart
  · exact .inr hlater
  · obtain ⟨rfl, rfl, rfl⟩ : front = [] ∧ t = u ∧ more = [] := by
      cases front <;> simp_all
    left
    simp

end Places

/-- From `pre` on, the scan reports the names that are called, in their order. -/
theorem exists_places {ts : List Token} (h : Blocks ts)
    (hdots : DotsAreCode ts) (unwanted : List String)
    (pre : List Token) :
    ∃ places : List Place, InOrder (fun c => c.before.length)
        (fun c => c.IsCall unwanted (pre ++ ts) ∧ pre.length ≤ c.before.length) places ∧
      (uses unwanted (pre.getLast?.map (·.text)) ts).filter (·.style == .direct) =
        places.map Place.use := by
  induction h generalizing pre with
  | nil =>
    refine ⟨[], ⟨.nil, fun c => ?_⟩, by rw [uses]; rfl⟩
    simp only [List.not_mem_nil, false_iff, not_and, List.append_nil, Nat.not_le]
    intro hc
    rw [hc.split, List.length_append, List.length_cons]
    omega
  | @code t rest ht h ih =>
    have hdots' : DotsAreCode rest := hdots.of_subset (List.subset_cons_self t rest)
    obtain ⟨places, hplaces, huses⟩ := ih hdots' (pre ++ [t])
    rw [List.append_assoc, List.singleton_append] at hplaces
    rw [List.getLast?_append, List.getLast?_singleton, Option.some_or, Option.map_some] at huses
    have hlt : pre.length < (pre ++ [t]).length := by simp
    rw [uses_token ht, List.filter_append, huses]
    by_cases hcall : Place.IsCall unwanted (pre ++ t :: rest) ⟨pre, t, rest⟩
    · refine ⟨⟨pre, t, rest⟩ :: places, hplaces.cons hcall hlt fun c hc => hc.cases, ?_⟩
      rw [if_pos hcall]
      rfl
    · refine ⟨places, hplaces.skip hlt.le fun c hc hstart => ?_, ?_⟩
      · obtain rfl | hlater := hc.cases hstart
        · exact absurd hc hcall
        · exact hlater
      · rw [if_neg hcall]
        rfl
  | @segment strings tokens after hjoins hcloses h ih =>
    have hinside : DotsAreCode tokens := hdots.of_subset (List.subset_append_left _ _)
    have hdots' : DotsAreCode after := hdots.of_subset (List.subset_append_right _ _)
    obtain ⟨places, hplaces, huses⟩ := ih hdots' (pre ++ tokens)
    rw [hjoins.getLast?_append] at huses
    rw [List.append_assoc] at hplaces
    have hle : pre.length ≤ (pre ++ tokens).length := by simp
    refine ⟨places, hplaces.skip hle fun c hc hstart => ?_, ?_⟩
    · obtain hlater | ⟨front, more, -, htokens, -⟩ := place_cases hc.split hstart
      · exact hlater
      · refine absurd ?_ (hjoins.not_isCall hc)
        rw [htokens]
        simp
    · rw [uses_segment hjoins hcloses hinside, List.filter_append, filter_joinedUse?_direct, huses,
        List.nil_append]

/-- No string of `ts` is joined to one of `pre`. -/
structure Apart (pre ts : List Token) : Prop where
  string : ∀ front t, pre = front ++ [t] → t.isString = true → ¬ StartsJoining ts
  dot : EndsJoining pre → ∀ t rest, ts = t :: rest → t.isString = false

theorem Apart.code {pre rest : List Token} {t : Token} (h : Apart pre (t :: rest))
    (ht : t.isString = false) : Apart (pre ++ [t]) rest where
  string front u heq hu := by
    obtain ⟨-, rfl⟩ := List.append_inj' heq rfl |>.imp_right (List.cons.inj · |>.1)
    rw [ht] at hu
    cases hu
  dot hends u more hrest := by
    obtain ⟨front, s, dot, heq, hs, hdot⟩ := hends
    obtain ⟨rfl, rfl⟩ : pre = front ++ [s] ∧ t = dot := by
      have : pre ++ [t] = (front ++ [s]) ++ [dot] := by simpa using heq
      simpa using List.append_inj' this rfl
    by_contra hu
    exact h.string front s rfl hs ⟨t, u, more, by rw [hrest], hdot, by simpa using hu⟩

theorem Apart.segment {pre strings tokens after : List Token} (hjoins : Joins strings tokens)
    (hcloses : ¬ StartsJoining after) (hdots : DotsAreCode tokens) :
    Apart (pre ++ tokens) after where
  string _ _ _ _ := hcloses
  dot hends := by
    obtain ⟨front, s, dot, heq, hs, hdot⟩ := hends
    obtain ⟨inner, u, rfl, hu⟩ := hjoins.last
    have hlast : u = dot := by
      have : (pre ++ inner) ++ [u] = (front ++ [s]) ++ [dot] := by simpa using heq
      simpa using (List.append_inj' this rfl).2
    rw [← hlast] at hdot
    exact absurd hdot (hdots u (by simp) hu)

theorem Segment.IsMaximal.starts_string {ts : List Token} {g : Segment} (h : g.IsMaximal ts) :
    ∃ t rest, ts = g.before ++ t :: rest ∧ t.isString = true := by
  obtain ⟨tokens, hjoins, rfl⟩ := h.split
  obtain ⟨t, rest, rfl, ht⟩ := hjoins.head
  exact ⟨t, _, rfl, ht⟩

/-- The segments that start behind `pre`, where one does: that one, and those behind it. -/
theorem isMaximal_cases {pre strings tokens after : List Token} (hjoins : Joins strings tokens)
    (hcloses : ¬ StartsJoining after) (hdots : DotsAreCode tokens)
    {g : Segment} (hg : g.IsMaximal (pre ++ (tokens ++ after)))
    (hstart : pre.length ≤ g.before.length) :
    g = ⟨pre, strings, after⟩ ∨ (pre ++ tokens).length ≤ g.before.length := by
  obtain ⟨t, rest, heq, ht⟩ := hg.starts_string
  obtain hlater | ⟨front, more, hbefore, htokens, -⟩ := place_cases heq hstart
  · exact .inr hlater
  left
  by_cases hfront : front = []
  · obtain ⟨before, strings', after'⟩ := g
    obtain ⟨tokens', hjoins', hsplit⟩ := hg.split
    dsimp only at hbefore hsplit hjoins'
    rw [hfront, List.append_nil] at hbefore
    subst hbefore
    have hrest := List.append_cancel_left hsplit
    obtain ⟨rfl, rfl⟩ := hjoins.unique hjoins' hrest hcloses hg.closes
    rw [List.append_cancel_left hrest]
  · obtain ⟨inner, s, dot, rfl, hs⟩ := hjoins.endsJoining hdots htokens ht hfront
    refine absurd ⟨pre ++ inner, s, dot, ?_, hs⟩ hg.opens
    rw [hbefore, List.append_assoc]

theorem Segment.IsMaximal.starts_behind {pre rest : List Token} {t : Token} {g : Segment}
    (hg : g.IsMaximal (pre ++ t :: rest)) (ht : t.isString = false)
    (hstart : pre.length ≤ g.before.length) : (pre ++ [t]).length ≤ g.before.length := by
  obtain ⟨u, more, heq, hu⟩ := hg.starts_string
  have hsplit : pre ++ ([t] ++ rest) = g.before ++ u :: more := heq
  obtain hlater | ⟨front, rest', hbefore, hone, -⟩ := place_cases hsplit hstart
  · exact hlater
  · obtain rfl : t = u := by
      cases front <;> simp_all
    rw [ht] at hu
    cases hu

/-- The segment found behind `pre` is maximal to the left too: `pre` was taken up to where a join
ends. -/
theorem Apart.isMaximal {pre strings tokens after : List Token} (h : Apart pre (tokens ++ after))
    (hjoins : Joins strings tokens) (hcloses : ¬ StartsJoining after) :
    Segment.IsMaximal (pre ++ (tokens ++ after)) ⟨pre, strings, after⟩ := by
  refine ⟨⟨tokens, hjoins, rfl⟩, ?_, hcloses⟩
  intro hends
  obtain ⟨t, rest, rfl, ht⟩ := hjoins.head
  have hcode := h.dot hends t (rest ++ after) rfl
  rw [ht] at hcode
  cases hcode

/-- From `pre` on, the scan reports the segments of which something is reported, in their order. -/
theorem exists_segments {ts : List Token} (h : Blocks ts)
    (hdots : DotsAreCode ts) (unwanted : List String)
    (pre : List Token) (hapart : Apart pre ts) :
    ∃ segments : List Segment, InOrder (fun g => g.before.length)
        (fun g => g.IsMaximal (pre ++ ts) ∧ pre.length ≤ g.before.length) segments ∧
      (uses unwanted (pre.getLast?.map (·.text)) ts).filter (·.style == .assembled) =
        segments.filterMap fun g => joinedUse? unwanted g.strings g.after := by
  induction h generalizing pre with
  | nil =>
    refine ⟨[], ⟨.nil, fun g => ?_⟩, by rw [uses]; rfl⟩
    simp only [List.not_mem_nil, false_iff, not_and, List.append_nil, Nat.not_le]
    intro hg
    obtain ⟨t, rest, heq, -⟩ := hg.starts_string
    rw [heq, List.length_append, List.length_cons]
    omega
  | @code t rest ht h ih =>
    have hdots' : DotsAreCode rest := hdots.of_subset (List.subset_cons_self t rest)
    obtain ⟨segments, hsegments, huses⟩ := ih hdots' (pre ++ [t]) (hapart.code ht)
    rw [List.append_assoc, List.singleton_append] at hsegments
    rw [List.getLast?_append, List.getLast?_singleton, Option.some_or, Option.map_some] at huses
    have hle : pre.length ≤ (pre ++ [t]).length := by simp
    refine ⟨segments, hsegments.skip hle fun g hg => hg.starts_behind ht, ?_⟩
    rw [uses_token ht, List.filter_append, huses]
    split <;> rfl
  | @segment strings tokens after hjoins hcloses h ih =>
    have hinside : DotsAreCode tokens := hdots.of_subset (List.subset_append_left _ _)
    have hdots' : DotsAreCode after := hdots.of_subset (List.subset_append_right _ _)
    obtain ⟨segments, hsegments, huses⟩ :=
      ih hdots' (pre ++ tokens) (.segment hjoins hcloses hinside)
    rw [hjoins.getLast?_append] at huses
    rw [List.append_assoc] at hsegments
    have hlt : pre.length < (pre ++ tokens).length := by
      obtain ⟨t, rest, rfl, -⟩ := hjoins.head
      simp
    have hmaximal := hapart.isMaximal hjoins hcloses
    refine ⟨⟨pre, strings, after⟩ :: segments, hsegments.cons hmaximal hlt fun g hg =>
      isMaximal_cases hjoins hcloses hinside hg, ?_⟩
    rw [uses_segment hjoins hcloses hinside, List.filter_append, filter_joinedUse?_assembled, huses,
      List.filterMap_cons]
    dsimp only
    cases joinedUse? unwanted strings after <;> rfl

theorem stringRun_rest_suffix (joined : String) (t : Token) (rest : List Token) :
    (stringRun joined (t :: rest)).rest <:+ rest := by
  cases hv : t.value with
  | none => simp only [stringRun_none hv, List.suffix_refl]
  | some v =>
    by_cases h : StartsJoining rest
    · obtain ⟨dot, u, more, rfl, hdot, hu⟩ := h
      have hrun : stringRun joined (t :: dot :: u :: more) = stringRun (joined ++ v) (u :: more) :=
        stringRun_join hv hdot (Joins.one hu) joined
      rw [hrun]
      exact (stringRun_rest_suffix (joined ++ v) u more).trans ⟨[dot, u], rfl⟩
    · simp only [stringRun_single hv h, List.suffix_refl]
termination_by rest.length

theorem filter_issue {s : Script} {issue : String} {style : Style}
    (h : ∀ u : Use, ((s.useViolation u).issue == issue) = (u.style == style)) (us : List Use) :
    (us.map s.useViolation).filter (·.issue == issue) =
      (us.filter (·.style == style)).map s.useViolation := by
  rw [List.filter_map]
  exact congrArg _ (List.filter_congr fun u _ => h u)

theorem issue_direct (s : Script) (u : Use) :
    ((s.useViolation u).issue == "Direct usage of invalid token") = (u.style == .direct) := by
  obtain ⟨name, style, line⟩ := u
  cases style <;> rfl

theorem issue_obfuscated (s : Script) (u : Use) :
    ((s.useViolation u).issue == "Obfuscated usage of invalid token") =
      (u.style == .assembled) := by
  obtain ⟨name, style, line⟩ := u
  cases style <;> rfl

/-- The scan of any tokens reports, in their order, the names that are called, and the segments
with strings behind the last one with code in it that name a function and are called. It goes on
behind every string it reads. -/
theorem scan_reports_calls {ts : List Token} (hdots : DotsAreCode ts)
    (unwanted : List String) (s : Script) :
    let rows := (uses unwanted none ts).map s.useViolation
    (∃ places : List Place,
      InOrder (fun c => c.before.length) (fun c => c.IsCall unwanted ts) places ∧
      rows.filter (·.issue == "Direct usage of invalid token") = places.map fun c =>
        s.tokenViolation c.token.line .high "Direct usage of invalid token"
          (Text.lower c.token.text)) ∧
    (∃ segments : List Segment,
      InOrder (fun g => g.before.length) (fun g => g.IsMaximal ts) segments ∧
      rows.filter (·.issue == "Obfuscated usage of invalid token") =
        (segments.filterMap fun g => joinedUse? unwanted g.strings g.after).map fun u =>
          s.tokenViolation u.line .critical "Obfuscated usage of invalid token" u.name) ∧
    (∀ x ∈ rows, x.issue = "Direct usage of invalid token" ∨
      x.issue = "Obfuscated usage of invalid token") ∧
    ∀ t rest, (stringRun "" (t :: rest)).rest <:+ rest := by
  intro rows
  have hapart : Apart [] ts := by
    constructor
    · intro front t heq
      simp at heq
    · rintro ⟨front, t, dot, heq, -⟩
      simp at heq
  obtain ⟨places, hplaces, hdirect⟩ := exists_places (blocks ts) hdots unwanted []
  obtain ⟨segments, hsegments, hjoined⟩ := exists_segments (blocks ts) hdots unwanted [] hapart
  refine ⟨⟨places, hplaces.congr (by simp), ?_⟩, ⟨segments, hsegments.congr (by simp), ?_⟩, ?_,
    stringRun_rest_suffix ""⟩
  · rw [filter_issue (issue_direct s)]
    refine (congrArg (List.map s.useViolation) hdirect).trans ?_
    rw [List.map_map]
    rfl
  · rw [filter_issue (issue_obfuscated s)]
    refine (congrArg (List.map s.useViolation) hjoined).trans ?_
    apply List.map_congr_left
    rintro ⟨name, style, line⟩ hu
    obtain ⟨g, -, hg⟩ := List.mem_filterMap.1 hu
    obtain rfl : style = .assembled := joinedUse?_style hg
    rfl
  · intro x hx
    obtain ⟨⟨name, style, line⟩, -, rfl⟩ := List.mem_map.1 hx
    cases style with
    | direct => exact .inl rfl
    | assembled => exact .inr rfl

/-- The tokens of `exec("a$b" . 'sys' . 'tem')()`. -/
def mixedTokens : List Token := [
  ⟨false, "exec", none, 1⟩, ⟨false, "(", none, 1⟩, ⟨true, "\"a$b\"", none, 1⟩,
  ⟨false, ".", none, 1⟩, ⟨true, "'sys'", some "sys", 2⟩, ⟨false, ".", none, 2⟩,
  ⟨true, "'tem'", some "tem", 2⟩, ⟨false, ")", none, 2⟩, ⟨false, "(", none, 2⟩, ⟨false, ")", none, 2⟩]

theorem uses_mixedTokens : uses ["exec", "system"] none mixedTokens =
    [⟨"exec", .direct, 1⟩, ⟨"system", .assembled, 2⟩] := by
  cbv

theorem mixed_calls_reported :
    let s : Script := ⟨"a.php", .ofBytes "".toUTF8, default, default⟩
    let unwanted := ["exec", "system"]
    (∃ places : List Place,
      InOrder (fun c => c.before.length) (fun c => c.IsCall unwanted mixedTokens) places ∧
      (places.map fun c => s.tokenViolation c.token.line .high "Direct usage of invalid token"
        (Text.lower c.token.text)) =
        [s.tokenViolation 1 .high "Direct usage of invalid token" "exec"]) ∧
    ∃ segments : List Segment,
      InOrder (fun g => g.before.length) (fun g => g.IsMaximal mixedTokens) segments ∧
      ((segments.filterMap fun g => joinedUse? unwanted g.strings g.after).map fun u =>
        s.tokenViolation u.line .critical "Obfuscated usage of invalid token" u.name) =
        [s.tokenViolation 2 .critical "Obfuscated usage of invalid token" "system"] := by
  intro s unwanted
  have hdots : DotsAreCode mixedTokens := by
    rw [DotsAreCode]
    decide
  obtain ⟨⟨places, hplaces, hdirect⟩, ⟨segments, hsegments, hjoined⟩, -⟩ :=
    scan_reports_calls hdots unwanted s
  refine ⟨⟨places, hplaces, ?_⟩, segments, hsegments, ?_⟩
  · rw [← hdirect, filter_issue (issue_direct s), uses_mixedTokens]
    rfl
  · rw [← hjoined, filter_issue (issue_obfuscated s), uses_mixedTokens]
    rfl

end PluginAudit.Php.Token
