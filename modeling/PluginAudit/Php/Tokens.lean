import PluginAudit.Php.Literal
import PluginAudit.Php.Script
import PluginAudit.Policy
import PluginAudit.Violation

namespace PluginAudit.Php

/-- A token. A string is one token, and has a value if there is no code in it. -/
structure Token where
  isString : Bool
  text : String
  value : Option String
  line : Nat
  deriving DecidableEq, Repr, Inhabited

namespace Token

def ofNode (n : Node) : Token :=
  ⟨n.kind.isString, n.text, if n.kind.isString then n.literal? else none, n.line⟩

/-- Whether a text is a name of ASCII letters, digits and underscores. -/
def isIdentifier (s : String) : Bool :=
  match s.toList with
  | [] => false
  | c :: rest => (c.isAlpha || c == '_') && rest.all fun c => c.isAlphanum || c == '_'

/-- The tokens after which a name is that of a member, a variable or a declaration. -/
def declaring : List String := ["->", "?->", "::", "$", "function", "fn", "new", "const"]

/-- How a function is called: by its name, or by a string. -/
inductive Style where
  | direct | assembled
  deriving DecidableEq, Repr

/-- A call of an unwanted function. -/
structure Use where
  name : String
  style : Style
  line : Nat
  deriving DecidableEq, Repr

/-- Strings joined by dots: their value, the text of the last of them, and the tokens after them. -/
structure Run where
  value : Option String
  last : String
  rest : List Token

/-- Reads strings joined by dots. A string with code in it ends the run and leaves it without a
value. -/
def stringRun (joined : String) : List Token → Run
  | [] => ⟨some joined, "", []⟩
  | t :: rest =>
    match t.value with
    | none => ⟨none, t.text, rest⟩
    | some v =>
      match rest with
      | dot :: next :: more =>
        if dot.text == "." && next.isString then stringRun (joined ++ v) (next :: more)
        else ⟨some (joined ++ v), t.text, rest⟩
      | _ => ⟨some (joined ++ v), t.text, rest⟩
termination_by ts => ts.length

theorem stringRun_length_le (joined : String) (ts : List Token) :
    (stringRun joined ts).rest.length ≤ ts.length - 1 := by
  fun_induction stringRun joined ts with
  | case1 => simp
  | case2 => simp
  | case3 joined t v dot next more hv h ih => simp at ih ⊢; omega
  | case4 => simp
  | case5 => simp

/-- Whether an opening parenthesis follows, after any number of closing ones. -/
def isCalled : List Token → Bool
  | [] => false
  | t :: rest => if t.text == ")" then isCalled rest else t.text == "("

/-- Whether a name after the given token can be that of a called function. -/
def canBeCalledAfter (previous : Option String) : Bool :=
  !previous.any fun p => declaring.contains (Text.lower p)

/-- The uses of unwanted names; `previous` is the text of the token before. -/
def uses (unwanted : List String) (previous : Option String) : List Token → List Use
  | [] => []
  | t :: rest =>
    if t.isString then
      let run := stringRun "" (t :: rest)
      have : (stringRun "" (t :: rest)).rest.length ≤ rest.length := by
        simpa using stringRun_length_le "" (t :: rest)
      match run.value with
      | some v =>
        if isCalled run.rest && unwanted.contains (Text.lower v) then
          ⟨Text.lower v, .assembled, t.line⟩ :: uses unwanted (some run.last) run.rest
        else uses unwanted (some run.last) run.rest
      | none => uses unwanted (some run.last) run.rest
    else
      let name := Text.lower t.text
      let later := uses unwanted (some t.text) rest
      if isIdentifier t.text && unwanted.contains name &&
          (rest.head?.any fun next => next.text == "(") && canBeCalledAfter previous then
        ⟨name, .direct, t.line⟩ :: later
      else later
termination_by ts => ts.length
decreasing_by all_goals grind

end Token

namespace Script

/-- The tokens of a script, without comments. -/
def tokens (s : Script) : List Token :=
  s.root.leaves.map Token.ofNode

def tokenViolation (s : Script) (line : Nat) (severity : Severity) (issue token : String) :
    Violation where
  type := "invalid_token_usage"
  severity := severity
  file := s.path
  line := line
  snippet := s.source.lineText line
  issue := issue
  data := [("token", .text token)]

def useViolation (s : Script) (u : Token.Use) : Violation :=
  match u.style with
  | .direct => s.tokenViolation u.line .high "Direct usage of invalid token" u.name
  | .assembled => s.tokenViolation u.line .critical "Obfuscated usage of invalid token" u.name

/-- The numbers of the lines that hold a backtick. -/
def backtickLines (s : Script) : List Nat :=
  let (_, found) := s.source.bytes.toList.foldl (fun (line, found) b =>
    if b == 10 then (line + 1, found)
    else if b == 96 && found.head? != some line then (line, line :: found)
    else (line, found)) (1, ([] : List Nat))
  found.reverse

/-- The calls of unwanted functions, then the lines with a backtick. -/
def scanTokens (unwanted : List String) (s : Script) : List Violation :=
  (Token.uses unwanted none s.tokens).map s.useViolation ++
  s.backtickLines.map fun line =>
    s.tokenViolation line .high "Backtick shell execution detected" "\x60"

end Script

/-- The unwanted functions: those listed, or, if there are none, those the policy forbids. -/
def unwantedFunctions (p : Policy) (listed : List String) : List String :=
  let listed := (listed.map fun s => Text.lower (Text.strip s)).filter (· != "")
  if listed.isEmpty then p.forbiddenFunctions else listed

end PluginAudit.Php
