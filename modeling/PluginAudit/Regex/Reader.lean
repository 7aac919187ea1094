import PluginAudit.Fault
import PluginAudit.Regex
import PluginAudit.Table

namespace PluginAudit.Regex

/-- How a part of an expression is to be taken. -/
structure Mode where
  anyCase : Bool := false
  /-- The anchors for the beginning and the end stand for those of each line. -/
  byLine : Bool := false
  /-- The dot stands for line feeds, too. -/
  feeds : Bool := false
  /-- Blanks and comments do not count. -/
  spaced : Bool := false

/-- What is still to be read, and the groups met so far. -/
structure Unread where
  rest : List Char
  groups : Nat := 0
  names : Table Nat := []
  /-- Groups that are not closed yet. -/
  opened : List Nat := []

/-- Why a text cannot be read as an expression. -/
inductive Error where
  | malformed
  /-- A greater number of repeats than can be counted. -/
  | endlessRepeat
  /-- A number of repeats with more digits than are read. -/
  | longInteger (digits : Nat)

/-- Reading fails for what is not an expression. -/
abbrev ReadM := StateT Unread (Except Error)

namespace ReadM

def fail {α : Type} : ReadM α := throw .malformed

def ofOption {α : Type} : Option α → ReadM α
  | some x => return x
  | none => fail

def peek : ReadM (Option Char) := return (← get).rest.head?

def rest : ReadM (List Char) := return (← get).rest

def setRest (cs : List Char) : ReadM Unit :=
  modify fun u => { u with rest := cs }

/-- The next character. -/
def next : ReadM Char := do
  match ← rest with
  | c :: cs => setRest cs; return c
  | [] => fail

/-- Reads the given character if it comes next. -/
def skip (c : Char) : ReadM Bool := do
  if (← peek) == some c then
    discard next
    return true
  else return false

/-- The characters from here on that satisfy a test, at most `n`. -/
def upTo (n : Nat) (test : Char → Bool) : ReadM (List Char) := do
  let cs := ((← rest).take n).takeWhile test
  setRest ((← rest).drop cs.length)
  return cs

/-- The characters before `mark`, which is read, too. -/
def before (mark : Char) : ReadM String := do
  let cs := (← rest).takeWhile (· != mark)
  setRest ((← rest).drop cs.length)
  if ← skip mark then return String.ofList cs else fail

end ReadM

open ReadM

def hexValue (c : Char) : Nat :=
  if c.isDigit then c.toNat - 48 else c.toLower.toNat - 87

def isHex (c : Char) : Bool :=
  c.isDigit || ('a' ≤ c.toLower && c.toLower ≤ 'f')

def isOctal (c : Char) : Bool :=
  '0' ≤ c && c ≤ '7'

def numeral (base : Nat) (cs : List Char) : Nat :=
  cs.foldl (fun n c => n * base + hexValue c) 0

/-- A character given by so many hexadecimal digits. -/
def hexChar (width : Nat) : ReadM Char := do
  let cs ← upTo width isHex
  let n := numeral 16 cs
  if cs.length == width && n < 0x110000 then return Char.ofNat n else fail

def octalChar (cs : List Char) : ReadM Char :=
  let n := numeral 8 cs
  if n ≤ 255 then return Char.ofNat n else fail

/-- The characters that a letter after a backslash can stand for, inside sets and outside. -/
def controlChar? : Char → Option Char
  | 'a' => some '\x07'
  | 'f' => some '\x0c'
  | 'n' => some '\n'
  | 'r' => some '\r'
  | 't' => some '\t'
  | 'v' => some '\x0b'
  | '\\' => some '\\'
  | _ => none

def classItem? : Char → Option CharItem
  | 'd' => some .digit
  | 'D' => some .notDigit
  | 's' => some .blank
  | 'S' => some .notBlank
  | 'w' => some .word
  | 'W' => some .notWord
  | _ => none

def escapedAnchor? : Char → Option Anchor
  | 'A' => some .textStart
  | 'Z' => some .textEnd
  | 'b' => some .edge
  | 'B' => some .notEdge
  | _ => none

/-- The character after a backslash, or the one that its digits give. Other letters have no
meaning. -/
def escapedChar (c : Char) : ReadM Char :=
  match controlChar? c with
  | some d => return d
  | none =>
    if c == 'x' then hexChar 2
    else if c == 'u' then hexChar 4
    else if c == 'U' then hexChar 8
    else if c.isAlpha then fail
    else return c

/-- What a part of an expression is to a repeat sign behind it. -/
inductive Repeatable where
  | yes
  | anchor
  | repeated
  deriving DecidableEq

structure Part where
  regex : Regex
  repeatable : Repeatable := .yes

/-- What a backslash outside of a set begins. -/
def escaped (m : Mode) : ReadM Part := do
  let c ← next
  match classItem? c, escapedAnchor? c with
  | some item, _ => return ⟨.set false false [item], .yes⟩
  | _, some a => return ⟨.anchor a, .anchor⟩
  | none, none =>
    if c == '0' then
      return ⟨.char (← octalChar (← upTo 2 isOctal)) m.anyCase, .yes⟩
    else if c.isDigit then
      match ← rest with
      | d :: e :: cs =>
        if isOctal c && isOctal d && isOctal e then
          setRest cs
          return ⟨.char (← octalChar [c, d, e]) m.anyCase, .yes⟩
        else reference c
      | _ => reference c
    else return ⟨.char (← escapedChar c) m.anyCase, .yes⟩
where
  reference (c : Char) : ReadM Part := do
    let n := numeral 10 (c :: (← upTo 1 Char.isDigit))
    let u ← get
    if n ≤ u.groups && !u.opened.contains n then return ⟨.back n m.anyCase, .yes⟩ else fail

/-- A member of a set: a character, or a class of them. -/
def setItem : ReadM (Char ⊕ CharItem) := do
  let c ← next
  if c != '\\' then return .inl c
  else
    let c ← next
    match classItem? c with
    | some item => return .inr item
    | none =>
      if c == 'b' then return .inl '\x08'
      else if isOctal c then return .inl (← octalChar (c :: (← upTo 2 isOctal)))
      else if c.isDigit then fail
      else return .inl (← escapedChar c)

def setItemOf : Char ⊕ CharItem → CharItem
  | .inl c => .range c c
  | .inr item => item

/-- The members of a set up to its closing bracket, which can be the first of them. -/
def setItems : Nat → List CharItem → ReadM (List CharItem)
  | 0, _ => fail
  | fuel + 1, items => do
    if !items.isEmpty then
      if ← skip ']' then return items.reverse
    let low ← setItem
    if ← skip '-' then
      if ← skip ']' then return (.range '-' '-' :: setItemOf low :: items).reverse
      match low, ← setItem with
      | .inl lo, .inl hi =>
        if lo ≤ hi then setItems fuel (.range lo hi :: items) else fail
      | _, _ => fail
    else setItems fuel (setItemOf low :: items)

/-- The first number of repeats that cannot be counted. -/
def maxRepeat : Nat := 4294967295

/-- A number of repeats. -/
def repeats (digits : List Char) : ReadM Nat := do
  if maxDigits < digits.length then throw (.longInteger digits.length)
  let n := numeral 10 digits
  if n < maxRepeat then return n else throw .endlessRepeat

/-- The bounds of a repeat sign, or nothing if an opening brace stands for itself. -/
def bounds (c : Char) : ReadM (Option (Nat × Option Nat)) := do
  match c with
  | '*' => return some (0, none)
  | '+' => return some (1, none)
  | '?' => return some (0, some 1)
  | _ =>
    let start ← rest
    if start.head? == some '\x7d' then return none
    let lo ← upTo start.length Char.isDigit
    let comma ← skip ','
    let hi ← if comma then upTo start.length Char.isDigit else pure lo
    if ← skip '\x7d' then
      let least ← repeats lo
      let most ← if hi.isEmpty then pure none else some <$> repeats hi
      if most.any (· < least) then fail
      return some (least, most)
    else
      setRest start
      return none

/-- The least and the greatest number of characters that an expression reads. -/
def width? : Regex → Option (Nat × Option Nat)
  | .empty | .anchor _ | .ahead .. | .behind .. => some (0, some 0)
  | .char .. | .any _ | .set .. => some (1, some 1)
  | .seq r s => do
    let (a, b) ← r.width?
    let (c, d) ← s.width?
    return (a + c, b.bind fun b => d.map (b + ·))
  | .alt r s => do
    let (a, b) ← r.width?
    let (c, d) ← s.width?
    return (min a c, b.bind fun b => d.map (max b))
  | .repeated r least most _ => do
    let (a, b) ← r.width?
    return (a * least, b.bind fun b => most.map (b * ·))
  | .group _ r | .atomic r => r.width?
  | .back .. => none

/-- The width of an expression that always reads the same number of characters. -/
def fixedWidth? (r : Regex) : Option Nat := do
  let (a, b) ← r.width?
  if b == some a then return a else none

def flag? (m : Mode) (on : Bool) : Char → Option Mode
  | 'i' => some { m with anyCase := on }
  | 'm' => some { m with byLine := on }
  | 's' => some { m with feeds := on }
  | 'x' => some { m with spaced := on }
  | 'u' => if on then some m else none
  | _ => none

/-- Letters that change the mode. -/
def flags (m : Mode) (on : Bool) (cs : List Char) : Option Mode :=
  cs.foldlM (fun m c => flag? m on c) m

/-- The flags of a group, up to the colon or the parenthesis. -/
def groupFlags (m : Mode) : ReadM Mode := do
  let stop := fun c => !(c == ':' || c == ')')
  let cs ← upTo (← rest).length stop
  match cs.splitOn '-' with
  | [on] => if on.isEmpty then fail else ofOption (flags m true on)
  | [on, off] => if off.isEmpty then fail else ofOption ((flags m true on).bind (flags · false off))
  | _ => fail

def isGroupName (s : String) : Bool :=
  match s.toList with
  | c :: cs => Text.isWord c && !CharItem.isDigit c && cs.all Text.isWord
  | [] => false

def openGroup (name : Option String) : ReadM Nat := do
  let u ← get
  let n := u.groups + 1
  match name with
  | some s =>
    if !isGroupName s || u.names.has s then fail
    modify fun u => { u with groups := n, names := u.names.put s n, opened := n :: u.opened }
  | none => modify fun u => { u with groups := n, opened := n :: u.opened }
  return n

def closeGroup (n : Nat) : ReadM Unit :=
  modify fun u => { u with opened := u.opened.filter (· != n) }

def sequence (parts : List Part) : Regex :=
  parts.foldl (fun r p => .seq p.regex r) .empty

/-- The expression of the last part, repeated. -/
def repeatLast (parts : List Part) (least : Nat) (most : Option Nat) : ReadM (List Part) := do
  match parts with
  | ⟨r, .yes⟩ :: before =>
    if ← skip '?' then return ⟨.repeated r least most false, .repeated⟩ :: before
    if ← skip '+' then return ⟨.atomic (.repeated r least most true), .repeated⟩ :: before
    return ⟨.repeated r least most true, .repeated⟩ :: before
  | _ => fail

def expectClose : ReadM Unit := do
  unless ← skip ')' do fail

mutual

/-- Sequences between bars. -/
def alternatives (m : Mode) : Nat → ReadM Regex
  | 0 => fail
  | fuel + 1 => do
    let r ← parts m fuel []
    if ← skip '|' then return .alt r (← alternatives m fuel) else return r

/-- A sequence, of which the given parts, the last one first, are read. -/
def parts (m : Mode) : Nat → List Part → ReadM Regex
  | 0, _ => fail
  | fuel + 1, done => do
    match ← peek with
    | none | some '|' | some ')' => return sequence done
    | some c =>
      discard next
      let char : Part := ⟨.char c m.anyCase, .yes⟩
      if m.spaced && Text.isBlank c then parts m fuel done
      else if m.spaced && c == '#' then
        discard (upTo (← rest).length (· != '\n'))
        parts m fuel done
      else match c with
      | '\\' => parts m fuel ((← escaped m) :: done)
      | '[' =>
        let negated ← skip '^'
        let items ← setItems fuel []
        parts m fuel (⟨.set negated m.anyCase items, .yes⟩ :: done)
      | '.' => parts m fuel (⟨.any m.feeds, .yes⟩ :: done)
      | '^' =>
        parts m fuel (⟨.anchor (if m.byLine then .lineStart else .textStart), .anchor⟩ :: done)
      | '$' =>
        parts m fuel (⟨.anchor (if m.byLine then .lineEnd else .lastLineEnd), .anchor⟩ :: done)
      | '*' | '+' | '?' | '\x7b' =>
        match ← bounds c with
        | some (least, most) => parts m fuel (← repeatLast done least most)
        | none => parts m fuel (char :: done)
      | '(' =>
        match ← inParens m fuel with
        | some p => parts m fuel (p :: done)
        | none => parts m fuel done
      | _ => parts m fuel (char :: done)

/-- What stands between parentheses, the first of which is read; nothing for a comment. -/
def inParens (m : Mode) : Nat → ReadM (Option Part)
  | 0 => fail
  | fuel + 1 => do
    if ← skip '?' then
      match ← next with
      | ':' => return some ⟨← closed m fuel, .yes⟩
      | '>' => return some ⟨.atomic (← closed m fuel), .yes⟩
      | '=' => return some ⟨.ahead false (← closed m fuel), .yes⟩
      | '!' => return some ⟨.ahead true (← closed m fuel), .yes⟩
      | '#' => discard (before ')'); return none
      | '<' =>
        let mark ← next
        if mark != '=' && mark != '!' then fail
        let r ← closed m fuel
        match r.fixedWidth? with
        | some n => return some ⟨.behind (mark == '!') n r, .yes⟩
        | none => fail
      | 'P' =>
        if ← skip '<' then
          let n ← openGroup (some (← before '>'))
          let r ← closed m fuel
          closeGroup n
          return some ⟨.group n r, .yes⟩
        else if ← skip '=' then
          let name ← before ')'
          let u ← get
          match u.names.find? name with
          | some n => if u.opened.contains n then fail else return some ⟨.back n m.anyCase, .yes⟩
          | none => fail
        else fail
      | c =>
        setRest (c :: (← rest))
        let inner ← groupFlags m
        if ← skip ':' then return some ⟨← closed inner fuel, .yes⟩ else fail
    else
      let n ← openGroup none
      let r ← closed m fuel
      closeGroup n
      return some ⟨.group n r, .yes⟩

/-- Alternatives and the parenthesis behind them. -/
def closed (m : Mode) : Nat → ReadM Regex
  | 0 => fail
  | fuel + 1 => do
    let r ← alternatives m fuel
    expectClose
    return r

end

/-- The flags in front of an expression, which hold for all of it. -/
def leadingFlags : Nat → Mode → ReadM Mode
  | 0, m => return m
  | fuel + 1, m => do
    match ← rest with
    | '(' :: '?' :: c :: cs =>
      if c.isAlpha && c != 'P' then
        let start ← rest
        setRest (c :: cs)
        let inner ← groupFlags m
        if ← skip ')' then leadingFlags fuel inner
        else
          setRest start
          return m
      else return m
    | _ => return m

/-- The expression of a text. -/
def parse (s : String) : Except Error Regex :=
  let fuel := 4 * s.length + 8
  let read : ReadM Regex := do
    let m ← leadingFlags fuel {}
    let r ← alternatives m fuel
    if (← rest).isEmpty then return r else fail
  (read { rest := s.toList }).map Prod.fst

end PluginAudit.Regex
