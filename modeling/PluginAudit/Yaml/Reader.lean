import PluginAudit.Yaml.Scalar
import PluginAudit.Json.Reader

namespace PluginAudit.Yaml

/-- The characters still to be read, the place of the first of them, the anchored values, and the
first scalar that has no value. -/
structure State where
  rest : List Char
  line : Nat
  column : Nat
  anchors : List (String × Value)
  fault : Option Error := none

/-- Readers give up on the first fault. -/
abbrev Reader := StateT State Option

def fail {α : Type} : Reader α := fun _ => none

/-- The value of a scalar. One without a value counts only if the text is otherwise in order. -/
def scalar : Except Error Value → Reader Value
  | .ok v => return v
  | .error e => do
    modify fun s => { s with fault := s.fault.or (some e) }
    return .null

def guard (ok : Bool) : Reader Unit :=
  if ok then pure () else fail

def isEnd (c : Option Char) : Bool :=
  match c with
  | none => true
  | some c => c == ' ' || c == '\t' || c == '\n'

def peekAt (k : Nat) : Reader (Option Char) := do
  return (← get).rest[k]?

def peek : Reader (Option Char) := peekAt 0

def column : Reader Nat := do return (← get).column

def line : Reader Nat := do return (← get).line

def fuel : Reader Nat := do return (← get).rest.length + 1

/-- Moves over one character. -/
def State.next (s : State) : State :=
  match s.rest with
  | [] => s
  | '\n' :: rest => { s with rest := rest, line := s.line + 1, column := 0 }
  | _ :: rest => { s with rest := rest, column := s.column + 1 }

def advance : Nat → Reader Unit
  | 0 => pure ()
  | n + 1 => do
    modify State.next
    advance n

/-- Moves over the characters that satisfy `p` and yields them. -/
def takeWhile (p : Char → Bool) : Reader (List Char) := do
  let cs := (← get).rest.takeWhile p
  advance cs.length
  return cs

/-- Whether a line of three dashes or dots starts here. -/
def atMarker : Reader Bool := do
  let s ← get
  let three := s.rest.take 3
  return s.column == 0 && (three == ['-', '-', '-'] || three == ['.', '.', '.']) &&
    isEnd s.rest[3]?

def atEnd : Reader Bool := do
  return (← get).rest.isEmpty || (← atMarker)

/-- Moves over blanks, comments and line ends, to the next token. -/
def skip : Nat → Reader Unit
  | 0 => pure ()
  | n + 1 => do
    let _ ← takeWhile (· == ' ')
    if (← peek) == some '#' then
      let _ ← takeWhile (· != '\n')
    if (← peek) == some '\n' then
      advance 1
      skip n

def skipAll : Reader Unit := do skip (← fuel)

/-- Line ends inside a scalar: one of them is a blank, each further one stands for itself. -/
def folded (feeds : Nat) : List Char :=
  if feeds == 1 then [' '] else List.replicate (feeds - 1) '\n'

/-- Moves over line ends and the blanks at the start of lines, and counts the line ends. -/
def lineEnds (count : Nat) : Nat → Reader Nat
  | 0 => return count
  | n + 1 => do
    match ← peek with
    | some '\n' =>
      advance 1
      if ← atMarker then return count + 1 else lineEnds (count + 1) n
    | some ' ' =>
      advance 1
      lineEnds count n
    | _ => return count

/-- Whether a plain scalar ends before the first of these characters. -/
def endsPlain (flow : Bool) (c : Char) (next : Option Char) : Bool :=
  c == ' ' || c == '\t' || c == '\n' ||
    (c == ':' && (isEnd next ||
      (flow && next.any fun d => [',', '[', ']', '\x7b', '\x7d'].contains d))) ||
    (flow && [',', '?', '[', ']', '\x7b', '\x7d'].contains c)

/-- The next run of a plain scalar without blanks in it. -/
def plainRun (flow : Bool) (acc : List Char) : List Char → List Char
  | [] => acc.reverse
  | c :: rest =>
    if endsPlain flow c rest.head? then acc.reverse else plainRun flow (c :: acc) rest

/-- Reads a plain scalar whose further lines start at least at column `least`. -/
def plainFrom (flow : Bool) (least : Nat) (acc : List Char) : Nat → Reader (List Char)
  | 0 => return acc
  | n + 1 => do
    let run := plainRun flow [] (← get).rest
    if run.isEmpty then return acc
    else
      advance run.length
      let acc := acc ++ run
      let saved ← get
      let blanks ← takeWhile (· == ' ')
      let gap ←
        if (← peek) == some '\n' then (do return folded (← lineEnds 0 (← fuel)))
        else pure blanks
      let here ← column
      let stop := gap.isEmpty || (← peek) == some '#' || (← atEnd) || (!flow && here < least)
      let next := plainRun flow [] (← get).rest
      if stop || next.isEmpty then
        set saved
        return acc
      else plainFrom flow least (acc ++ gap) n

/-- Whether a plain scalar can start with these characters. -/
def startsPlain (flow : Bool) (c : Char) (next : Option Char) : Bool :=
  let indicators := [' ', '\t', '\n', '-', '?', ':', ',', '[', ']', '\x7b', '\x7d', '#', '&', '*',
    '!', '|', '>', '\'', '"', '%', '@', '\x60']
  !indicators.contains c || (!isEnd next && (c == '-' || (!flow && (c == '?' || c == ':'))))

/-- The line ends and blanks inside a quoted scalar. -/
def quotedGap : Reader (List Char) := do
  let blanks ← takeWhile fun c => c == ' ' || c == '\t'
  if (← peek) == some '\n' then
    let n ← lineEnds 0 (← fuel)
    let _ ← takeWhile fun c => c == ' ' || c == '\t'
    guard (!(← atMarker))
    return folded n
  else return blanks

/-- Reads a scalar in single quotes, after the first quote. -/
def singleFrom (acc : List Char) : Nat → Reader (List Char)
  | 0 => fail
  | n + 1 => do
    match ← peek with
    | none => fail
    | some '\'' =>
      advance 1
      if (← peek) == some '\'' then
        advance 1
        singleFrom ('\'' :: acc) n
      else return acc.reverse
    | some c =>
      if c == ' ' || c == '\t' || c == '\n' then
        let gap ← quotedGap
        singleFrom (gap.reverse ++ acc) n
      else
        advance 1
        singleFrom (c :: acc) n

def escapes : List (Char × Nat) :=
  [('0', 0), ('a', 7), ('b', 8), ('t', 9), ('\t', 9), ('n', 10), ('v', 11), ('f', 12), ('r', 13),
    ('e', 27), (' ', 32), ('"', 34), ('\\', 92), ('/', 47), ('N', 0x85), ('_', 0xA0),
    ('L', 0x2028), ('P', 0x2029)]

/-- The value of exactly `n` hexadecimal digits. -/
def hex? (n : Nat) (cs : List Char) : Option Nat :=
  let ds := cs.take n
  if ds.length == n then
    ds.foldl (fun acc c => do return (← acc) * 16 + (← Json.hexValue? c)) (some 0)
  else none

/-- Reads an escape after its backslash. -/
def escape : Reader (List Char) := do
  match ← peek with
  | none => fail
  | some c =>
    match escapes.find? (·.1 == c) with
    | some (_, n) =>
      advance 1
      return [Char.ofNat n]
    | none =>
      let width := if c == 'x' then 2 else if c == 'u' then 4 else if c == 'U' then 8 else 0
      if width != 0 then
        match hex? width ((← get).rest.drop 1) with
        | some n =>
          advance (width + 1)
          return [Char.ofNat n]
        | none => fail
      else if c == '\n' then
        let n ← lineEnds 0 (← fuel)
        return List.replicate (n - 1) '\n'
      else fail

/-- Reads a scalar in double quotes, after the first quote. -/
def doubleFrom (acc : List Char) : Nat → Reader (List Char)
  | 0 => fail
  | n + 1 => do
    match ← peek with
    | none => fail
    | some '"' =>
      advance 1
      return acc.reverse
    | some '\\' =>
      advance 1
      let e ← escape
      doubleFrom (e.reverse ++ acc) n
    | some c =>
      if c == ' ' || c == '\t' || c == '\n' then
        let gap ← quotedGap
        doubleFrom (gap.reverse ++ acc) n
      else
        advance 1
        doubleFrom (c :: acc) n

/-- Reads a quoted scalar. -/
def quoted (quote : Char) : Reader String := do
  advance 1
  let cs ← if quote == '\'' then singleFrom [] (← fuel) else doubleFrom [] (← fuel)
  return String.ofList cs

/-- How the line ends after a block scalar are kept. -/
inductive Chomping where
  | strip | clip | keep
  deriving DecidableEq

/-- The header of a block scalar: chomping and explicit indentation. -/
def blockHeader (chomp : Chomping) (indent : Option Nat) : Nat → Reader (Chomping × Option Nat)
  | 0 => return (chomp, indent)
  | n + 1 => do
    match ← peek with
    | some '+' =>
      advance 1
      blockHeader .keep indent n
    | some '-' =>
      advance 1
      blockHeader .strip indent n
    | some c =>
      if c.isDigit && c != '0' then
        advance 1
        blockHeader chomp (some (c.toNat - 48)) n
      else return (chomp, indent)
    | none => return (chomp, indent)

/-- The number of blanks at the start of a line. -/
def leadingBlanks (l : List Char) : Nat :=
  (l.takeWhile (· == ' ')).length

def isBlankLine (l : List Char) : Bool :=
  l.all (· == ' ')

/-- The lines of a block scalar: those that are blank or start at least at column `indent`. -/
def blockLines (indent : Nat) (acc : List (List Char)) : Nat → Reader (List (List Char))
  | 0 => return acc.reverse
  | n + 1 => do
    let s ← get
    if s.rest.isEmpty then return acc.reverse
    else
      let l := s.rest.takeWhile (· != '\n')
      if ← atMarker then return acc.reverse
      else if isBlankLine l || indent ≤ leadingBlanks l then
        advance (l.length + 1)
        blockLines indent (l.drop indent :: acc) n
      else return acc.reverse

/-- Joins the lines of a folded scalar: a line end between two lines that start with no blank
becomes a blank. -/
def foldLines (acc : List Char) : List (List Char) → List Char
  | [] => acc
  | [l] => acc ++ l
  | l :: next :: rest =>
    let acc := acc ++ l
    let plain := fun (x : List Char) => !x.isEmpty && !(x.head?.any fun c => c == ' ' || c == '\t')
    if l.isEmpty then foldLines (acc ++ ['\n']) (next :: rest)
    else if plain l && plain next then foldLines (acc ++ [' ']) (next :: rest)
    else if plain l && next.isEmpty then foldLines acc (next :: rest)
    else foldLines (acc ++ ['\n']) (next :: rest)

/-- Reads a scalar introduced by a bar or an angle bracket, inside a collection at `indent`. -/
def blockScalar (indent : Int) : Reader String := do
  let style ← peek
  advance 1
  let (chomp, explicit) ← blockHeader .clip none 3
  let _ ← takeWhile (· == ' ')
  if (← peek) == some '#' then
    let _ ← takeWhile (· != '\n')
  guard ((← peek).isNone || (← peek) == some '\n')
  advance 1
  let least := (indent + 1).toNat
  let lines := Text.linesOf (String.ofList (← get).rest)
  let first := lines.map String.toList |>.find? fun l => !isBlankLine l
  let width :=
    match explicit with
    | some n => (max indent 0).toNat + n
    | none => max (max least 1) ((first.map leadingBlanks).getD 0)
  let all ← blockLines width [] (← fuel)
  let body := (all.reverse.dropWhile List.isEmpty).reverse
  let trailing := all.length - body.length
  let text :=
    if style == some '>' then String.ofList (foldLines [] body)
    else Text.join "\n" (body.map String.ofList)
  let ending :=
    match chomp with
    | .strip => ""
    | .clip => if body.isEmpty then "" else "\n"
    | .keep =>
      String.ofList (List.replicate (if body.isEmpty then trailing else trailing + 1) '\n')
  return text ++ ending

/-- An anchor and a tag in front of a node. -/
structure Properties where
  anchor : Option String
  tag : Option String

def isAnchorChar (c : Char) : Bool :=
  c.isAlphanum || c == '-' || c == '_'

def isTagChar (c : Char) : Bool :=
  !isEnd (some c) && !([',', '[', ']', '\x7b', '\x7d'].contains c)

/-- Reads the properties of a node, each followed by blanks. -/
def properties (p : Properties) : Nat → Reader Properties
  | 0 => return p
  | n + 1 => do
    match ← peek with
    | some '&' =>
      guard p.anchor.isNone
      advance 1
      let name ← takeWhile isAnchorChar
      let next ← peek
      guard (!name.isEmpty && (isEnd next || [some ',', some ']', some '\x7d'].contains next))
      let _ ← takeWhile (· == ' ')
      properties { p with anchor := some (String.ofList name) } n
    | some '!' =>
      guard p.tag.isNone
      let tag ← takeWhile isTagChar
      let _ ← takeWhile (· == ' ')
      properties { p with tag := some (String.ofList tag) } n
    | _ => return p

/-- Applies a tag to a scalar that is written plainly or in quotes. -/
def taggedScalar (tag : Option String) (plain : Bool) (s : String) : Reader Value :=
  match tag with
  | none => if plain then scalar (plainValue s) else return .text s
  | some "!!str" | some "!" => return .text s
  | some "!!null" => return .null
  | some "!!int" => scalar (((integer? s.toList).getD (.error (.badInteger s 10))).map .int)
  | some "!!float" =>
    match float? s.toList, integer? s.toList with
    | some x, _ => return .float x
    | none, some (.ok n) => return .float (.ofDecimal (n < 0) n.natAbs 0)
    | none, _ => scalar (.error (.badDouble s))
  | some "!!bool" =>
    match plainValue s with
    | .ok (.bool b) => return .bool b
    | _ => scalar (.error (.badBoolean s))
  | some _ => fail

/-- Remembers the value of an anchor, which must be new. -/
def bindAnchor (p : Properties) (v : Value) : Reader Value := do
  match p.anchor with
  | none => return v
  | some name =>
    let s ← get
    guard (!s.anchors.any fun a => a.1 == name)
    set { s with anchors := (name, v) :: s.anchors }
    return v

/-- Reads an alias after its asterisk. -/
def aliased : Reader Value := do
  advance 1
  let name := String.ofList (← takeWhile isAnchorChar)
  match (← get).anchors.find? fun a => a.1 == name with
  | some (_, v) => return v
  | none => fail

/-- Collections cannot be keys. -/
def isKey : Value → Bool
  | .list _ | .map _ => false
  | _ => true

/-- The mapping of entries, of which those under `<<` bring in the entries of other mappings. -/
def mapping (entries : List (Value × Value)) : Reader Value := do
  let isMerge := fun (e : Value × Value) =>
    match e.1 with
    | .text "<<" => true
    | _ => false
  let merged ← (entries.filter isMerge).foldlM (fun acc e => do
    match e.2 with
    | .map es => return acc ++ es
    | .list items =>
      let more ← items.reverse.foldlM (fun (acc : List (Value × Value)) v =>
        match v with
        | .map es => return acc ++ es
        | _ => fail) []
      return acc ++ more
    | _ => fail) []
  let own := entries.filter fun e => !isMerge e
  guard (own.all fun e => isKey e.1)
  return .ofEntries (merged ++ own)

/-- A collection with its tag, which can only be its own. -/
def taggedCollection (tag : Option String) (v : Value) : Reader Value :=
  match tag, v with
  | none, v => return v
  | some "!!map", .map es => return .map es
  | some "!!seq", .list items => return .list items
  | some "!", v => return v
  | _, _ => fail

/-- Whether a colon that ends a key stands here. -/
def atColon (flow : Bool) (quotedKey : Bool) : Reader Bool := do
  let next ← peekAt 1
  return (← peek) == some ':' &&
    (isEnd next || (flow && (quotedKey ||
      [some ',', some '[', some ']', some '\x7b', some '\x7d'].contains next)))

/-- How a node is written. -/
inductive Form where
  /-- A scalar without quotes and without a tag. -/
  | plain
  | quoted
  | other
  deriving DecidableEq

/-- A node that is no key. A plain equals sign has a value as a key only. -/
def standalone (form : Form) (v : Value) : Reader Value :=
  match form, v with
  | .plain, .text "=" => scalar (.error .malformed)
  | _, v => return v

mutual

/-- Reads a node of a flow collection. -/
def flowNode : Nat → Reader (Value × Form)
  | 0 => fail
  | n + 1 => do
    let p ← properties ⟨none, none⟩ 3
    skipAll
    match ← peek with
    | none => fail
    | some c =>
      if c == '[' then
        advance 1
        let items ← flowItems n []
        let v ← taggedCollection p.tag (.list items)
        return (← bindAnchor p v, .other)
      else if c == '\x7b' then
        advance 1
        let entries ← flowEntries n []
        let v ← taggedCollection p.tag (← mapping entries)
        return (← bindAnchor p v, .other)
      else if c == '*' then return (← aliased, .other)
      else if c == '\'' || c == '"' then
        let s ← quoted c
        let v ← taggedScalar p.tag false s
        return (← bindAnchor p v, .quoted)
      else if c == ',' || c == ']' || c == '\x7d' || c == ':' then
        guard (c != ':' || (← atColon true false) || p.anchor.isSome || p.tag.isSome)
        let v ← taggedScalar p.tag true ""
        return (← bindAnchor p v, .other)
      else
        guard (startsPlain true c (← peekAt 1))
        let cs ← plainFrom true 0 [] (← fuel)
        guard (!cs.isEmpty)
        let v ← taggedScalar p.tag true (String.ofList cs)
        return (← bindAnchor p v, if p.tag.isNone then .plain else .other)

/-- Reads the value after a key of a flow collection; nothing stands for null. -/
def flowValue : Nat → Reader Value
  | 0 => fail
  | n + 1 => do
    advance 1
    skipAll
    match ← peek with
    | some ',' | some ']' | some '\x7d' => return .null
    | _ =>
      let (v, form) ← flowNode n
      standalone form v

/-- Reads the items of a flow sequence up to its bracket. -/
def flowItems : Nat → List Value → Reader (List Value)
  | 0, _ => fail
  | n + 1, acc => do
    skipAll
    if ← atEnd then fail
    else match ← peek with
      | some ']' =>
        advance 1
        return acc.reverse
      | some ',' => fail
      | _ =>
        let (v, form) ← flowNode n
        skipAll
        let item ←
          if ← atColon true (form == .quoted) then (do mapping [(v, ← flowValue n)])
          else standalone form v
        skipAll
        match ← peek with
        | some ',' =>
          advance 1
          flowItems n (item :: acc)
        | some ']' =>
          advance 1
          return (item :: acc).reverse
        | _ => fail

/-- Reads the entries of a flow mapping up to its brace. -/
def flowEntries : Nat → List (Value × Value) → Reader (List (Value × Value))
  | 0, _ => fail
  | n + 1, acc => do
    skipAll
    if ← atEnd then fail
    else match ← peek with
      | some '\x7d' =>
        advance 1
        return acc.reverse
      | some ',' => fail
      | _ =>
        let (k, form) ← flowNode n
        skipAll
        let v ← if ← atColon true (form == .quoted) then flowValue n else pure .null
        skipAll
        match ← peek with
        | some ',' =>
          advance 1
          flowEntries n ((k, v) :: acc)
        | some '\x7d' =>
          advance 1
          return ((k, v) :: acc).reverse
        | _ => fail

end

/-- A scalar in one line that may be a key: its value, and whether it ended in the line where it
started. -/
def keyScalar (indent : Int) (p : Properties) : Reader (Value × Bool) := do
  let start ← line
  match ← peek with
  | none => fail
  | some c =>
    if c == '*' then return (← aliased, true)
    else if c == '\'' || c == '"' then
      let s ← quoted c
      return (← taggedScalar p.tag false s, (← line) == start)
    else
      guard (startsPlain false c (← peekAt 1))
      let cs ← plainFrom false (indent + 1).toNat [] (← fuel)
      guard (!cs.isEmpty)
      return (← taggedScalar p.tag true (String.ofList cs), (← line) == start)

/-- Whether an item of a block sequence starts here. -/
def atItem : Reader Bool := do
  return (← peek) == some '-' && isEnd (← peekAt 1)

mutual

/-- Reads a node inside a block collection at column `indent`. Right after a key, in the same line,
no block collection can start (`inline`). -/
def blockNode : Nat → Int → Bool → Reader Value
  | 0, _, _ => fail
  | n + 1, indent, inline => do
    let start ← line
    let p ← properties ⟨none, none⟩ 3
    let isBare := (← peek) == some '\n' || (← peek) == some '#' || (← peek).isNone
    skipAll
    let sameLine := (← line) == start
    let inline := inline && sameLine
    let here ← column
    if isBare && ((← atEnd) || (here : Int) ≤ indent) && !(← atItem) then
      bindAnchor p (← taggedScalar p.tag true "")
    else if ← atItem then
      guard (!inline)
      let items ← blockItems n here []
      bindAnchor p (← taggedCollection p.tag (.list items))
    else match ← peek with
      | none => fail
      | some c =>
        if c == '|' || c == '>' then
          bindAnchor p (← taggedScalar p.tag false (← blockScalar indent))
        else if c == '[' || c == '\x7b' then
          let (v, _) ← flowNode n
          let _ ← takeWhile (· == ' ')
          guard (!(← atColon false false))
          bindAnchor p (← taggedCollection p.tag v)
        else
          let keyTag := if sameLine then p.tag else none
          let (v, oneLine) ← keyScalar indent { p with tag := keyTag }
          let saved ← get
          let _ ← takeWhile (· == ' ')
          if ← atColon false false then
            guard (oneLine && !inline && isKey v)
            if sameLine then
              let k ← bindAnchor p v
              mapping (← blockEntries n here k [])
            else
              let es ← blockEntries n here v []
              bindAnchor p (← taggedCollection p.tag (← mapping es))
          else
            set saved
            guard (sameLine || p.tag.isNone)
            let isPlain := c != '*' && c != '\'' && c != '"' && p.tag.isNone
            bindAnchor p (← standalone (if isPlain then .plain else .other) v)

/-- Reads the items of a block sequence at a column. -/
def blockItems : Nat → Nat → List Value → Reader (List Value)
  | 0, _, _ => fail
  | n + 1, col, acc => do
    let start ← line
    advance 1
    skipAll
    let here ← column
    let item ←
      if (← atEnd) || ((← line) != start && here ≤ col) then pure .null
      else blockNode n col false
    let last ← line
    skipAll
    let here ← column
    if ← atEnd then return (item :: acc).reverse
    else if here == col && (← atItem) then blockItems n col (item :: acc)
    else
      guard (here ≤ col && ((← line) != last || here == 0))
      return (item :: acc).reverse

/-- Reads the entries of a block mapping at a column, from the colon after the first key on. -/
def blockEntries : Nat → Nat → Value → List (Value × Value) → Reader (List (Value × Value))
  | 0, _, _, _ => fail
  | n + 1, col, key, acc => do
    let start ← line
    advance 1
    skipAll
    let here ← column
    let sameLine := (← line) == start
    let v ←
      if ← atEnd then pure .null
      else if sameLine then blockNode n col true
      else if col < here then blockNode n col false
      else if here == col && (← atItem) then (do return .list (← blockItems n col []))
      else pure .null
    let acc := (key, v) :: acc
    skipAll
    let here ← column
    if (← atEnd) || here < col then return acc.reverse
    else
      guard (here == col && !(← atItem))
      let p ← properties ⟨none, none⟩ 3
      let (k, oneLine) ← keyScalar col p
      let k ← bindAnchor p k
      let _ ← takeWhile (· == ' ')
      guard (oneLine && isKey k && (← atColon false false))
      blockEntries n col k acc

end

/-- Whether a character may stand in a text at all. -/
def isAllowed (c : Char) : Bool :=
  let n := c.toNat
  n == 9 || n == 10 || n == 13 || (32 ≤ n && n ≤ 126) || n == 0x85 || (0xA0 ≤ n && n ≤ 0xFFFD) ||
    0x10000 ≤ n

/-- Moves over directives, lines that start with a percent sign. -/
def directives : Nat → Reader Unit
  | 0 => pure ()
  | n + 1 => do
    skipAll
    if (← peek) == some '%' && (← column) == 0 then
      let _ ← takeWhile (· != '\n')
      directives n

/-- Reads the only document of a text. -/
def document : Reader Value := do
  directives (← fuel)
  let startsDocument := (← get).rest.take 3 == ['-', '-', '-'] && (← atMarker)
  if startsDocument then advance 3
  skipAll
  let v ← if ← atEnd then pure .null else blockNode (2 * (← fuel)) (-1) false
  skipAll
  if (← get).rest.take 3 == ['.', '.', '.'] && (← atMarker) then
    advance 3
    skipAll
  guard (← get).rest.isEmpty
  return v

/-- The value of a YAML text of one document. Sets, binary data and values that contain themselves
are not read. -/
def parse (text : String) : Except Error Value :=
  let cs := (Text.withNewlines text).toList
  let cs := if cs.head? == some '\uFEFF' then cs.drop 1 else cs
  let cs := cs.map fun c => if c.toNat == 0x85 then '\n' else c
  if !cs.all isAllowed then .error .malformed
  else match document.run ⟨cs, 0, 0, [], none⟩ with
    | none => .error .malformed
    | some (v, s) =>
      match s.fault with
      | some e => .error e
      | none => .ok v

end PluginAudit.Yaml
