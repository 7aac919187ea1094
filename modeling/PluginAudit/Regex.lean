import PluginAudit.Text.Blank
import PluginAudit.Text.Case
import PluginAudit.Text.Word

namespace PluginAudit

/-- A member of a set of characters. -/
inductive CharItem where
  | range (lo hi : Char)
  | digit | notDigit | blank | notBlank | word | notWord
  deriving DecidableEq, Repr

namespace CharItem

def isDigit (c : Char) : Bool :=
  (Text.digitValue? c).isSome

def holds (c : Char) : CharItem → Bool
  | .range lo hi => lo ≤ c && c ≤ hi
  | .digit => isDigit c
  | .notDigit => !isDigit c
  | .blank => Text.isBlank c
  | .notBlank => !Text.isBlank c
  | .word => Text.isWord c
  | .notWord => !Text.isWord c

end CharItem

/-- A place that an expression can ask for. -/
inductive Anchor where
  | textStart | lineStart | textEnd
  /-- The end, or before a line feed at the end. -/
  | lastLineEnd
  | lineEnd | edge | notEdge
  deriving DecidableEq, Repr

/-- A regular expression. -/
inductive Regex where
  | empty
  | char (c : Char) (anyCase : Bool)
  /-- Any character, with or without line feeds. -/
  | any (feeds : Bool)
  | set (negated anyCase : Bool) (items : List CharItem)
  | anchor (a : Anchor)
  | seq (r s : Regex)
  | alt (r s : Regex)
  /-- From `least` to `most` times, as often as possible or as rarely. -/
  | repeated (r : Regex) (least : Nat) (most : Option Nat) (greedy : Bool)
  | group (index : Nat) (r : Regex)
  /-- What a group has read, once more. -/
  | back (index : Nat) (anyCase : Bool)
  /-- What follows matches or does not. -/
  | ahead (negated : Bool) (r : Regex)
  /-- The given number of characters before match or do not. -/
  | behind (negated : Bool) (width : Nat) (r : Regex)
  /-- Only the preferred reading. -/
  | atomic (r : Regex)
  deriving Repr, Inhabited

namespace Regex

/-- A place in a text, and the texts that groups have read. -/
structure State where
  before : List Char
  after : List Char
  groups : List (Nat × List Char)

def State.group? (s : State) (index : Nat) : Option (List Char) :=
  (s.groups.find? fun g => g.1 == index).map Prod.snd

def sameChar (anyCase : Bool) (a b : Char) : Bool :=
  a == b || (anyCase && Text.sameFolded a b)

/-- Whether a set holds a character; if case does not count, also one equal to it. -/
def inSet (anyCase : Bool) (items : List CharItem) (c : Char) : Bool :=
  items.any (·.holds c) || (anyCase &&
    (items.any (·.holds (Text.lowerChar c)) || items.any (·.holds c.toUpper) ||
      items.any (·.holds (Text.foldChar c))))

/-- Reads one character that passes a test. -/
def State.step (s : State) (test : Char → Bool) : Option State :=
  match s.after with
  | c :: rest => if test c then some { s with before := c :: s.before, after := rest } else none
  | [] => none

/-- Reads the given characters. -/
def State.readAll (s : State) (anyCase : Bool) : List Char → Option State
  | [] => some s
  | c :: cs => (s.step (sameChar anyCase c)).bind fun s => s.readAll anyCase cs

/-- Goes back the given number of characters. -/
def State.backBy (s : State) : Nat → Option State
  | 0 => some s
  | n + 1 =>
    match s.before with
    | c :: rest => backBy { s with before := rest, after := c :: s.after } n
    | [] => none

def Anchor.holds (s : State) : Anchor → Bool
  | .textStart => s.before.isEmpty
  | .lineStart => s.before.isEmpty || s.before.head? == some '\n'
  | .textEnd => s.after.isEmpty
  | .lastLineEnd => s.after.isEmpty || s.after == ['\n']
  | .lineEnd => s.after.isEmpty || s.after.head? == some '\n'
  | .edge => s.before.head?.any Text.isWord != s.after.head?.any Text.isWord
  | .notEdge => s.before.head?.any Text.isWord == s.after.head?.any Text.isWord

/-- What the groups read on the way from one state to another is kept only if the other is. -/
def capture (index : Nat) (start done : State) : State :=
  let n := done.before.length - start.before.length
  let text := (done.before.take n).reverse
  { done with groups := (index, text) :: done.groups.filter fun g => g.1 != index }

/-- Reads an expression and then what `next` reads, in order of preference. The fuel bounds the
number of nested steps. -/
def run : Nat → Regex → State → (State → Option State) → Option State
  | 0, _, _, _ => none
  | fuel + 1, r, s, next =>
    match r with
    | .empty => next s
    | .char c anyCase => (s.step (sameChar anyCase c)).bind next
    | .any feeds => (s.step fun c => feeds || c != '\n').bind next
    | .set negated anyCase items =>
      (s.step fun c => inSet anyCase items c != negated).bind next
    | .anchor a => if Anchor.holds s a then next s else none
    | .seq r t => run fuel r s fun s => run fuel t s next
    | .alt r t => (run fuel r s next).orElse fun _ => run fuel t s next
    | .repeated r least most greedy =>
      let again := fun _ =>
        if most == some 0 then none
        else run fuel r s fun s' =>
          if least == 0 && s'.after.length == s.after.length then none
          else run fuel (.repeated r (least - 1) (most.map (· - 1)) greedy) s' next
      if least == 0 then
        if greedy then (again ()).orElse fun _ => next s else (next s).orElse again
      else again ()
    | .group index r => run fuel r s fun done => next (capture index s done)
    | .back index anyCase =>
      match s.group? index with
      | some text => (s.readAll anyCase text).bind next
      | none => none
    | .ahead negated r =>
      match run fuel r s some with
      | some done => if negated then none else next { s with groups := done.groups }
      | none => if negated then next s else none
    | .behind negated width r =>
      match (s.backBy width).bind fun start =>
          run fuel r start fun done =>
            if done.after.length == s.after.length then some done else none with
      | some done => if negated then none else next { s with groups := done.groups }
      | none => if negated then next s else none
    | .atomic r => (run fuel r s some).bind next

/-- The number of parts of an expression. -/
def size : Regex → Nat
  | .seq r s | .alt r s => r.size + s.size + 1
  | .repeated r least most _ => r.size * (least + most.getD 0 + 1) + least + most.getD 0 + 1
  | .group _ r | .ahead _ r | .behind _ _ r | .atomic r => r.size + 1
  | _ => 1

/-- Whether an expression matches from some place on. -/
def matchesFrom (r : Regex) (fuel : Nat) (before : List Char) : List Char → Bool
  | [] => (r.run fuel ⟨before, [], []⟩ some).isSome
  | c :: rest =>
    (r.run fuel ⟨before, c :: rest, []⟩ some).isSome || matchesFrom r fuel (c :: before) rest

/-- Whether an expression matches somewhere in a text. -/
def occursIn (r : Regex) (s : String) : Bool :=
  let cs := s.toList
  r.matchesFrom (2 * (r.size + 4) * (cs.length + 2)) [] cs

end Regex

end PluginAudit
