import PluginAudit.Php.Node
import PluginAudit.Text.Utf8
import PluginAudit.Text.Blank

namespace PluginAudit.Php

/-- A source file with the positions of its line feeds. -/
structure Source where
  bytes : ByteArray
  feeds : Array Nat

namespace Source

def size (s : Source) : Nat :=
  s.bytes.size

/-- The byte at a position; zero past the end. -/
def byteAt (bytes : ByteArray) (i : Nat) : UInt8 :=
  if h : i < bytes.size then bytes[i] else 0

def byte (s : Source) (i : Nat) : UInt8 :=
  byteAt s.bytes i

/-- The positions of the line feeds from `i` on, of which `n` bytes are left. -/
def feedsFrom (bytes : ByteArray) (i : Nat) (acc : Array Nat) : Nat → Array Nat
  | 0 => acc
  | n + 1 =>
    feedsFrom bytes (i + 1) (if byteAt bytes i == 10 then acc.push i else acc) n

def ofBytes (bytes : ByteArray) : Source :=
  ⟨bytes, feedsFrom bytes 0 #[] bytes.size⟩

def ofText (text : String) : Source :=
  ofBytes text.toUTF8

/-- How many entries of a sorted array, among those from `lo` up to `hi`, are below `i`; the range
is halved at each step. -/
def countBelow (a : Array Nat) (i : Nat) : Nat → Nat → Nat → Nat
  | 0, lo, _ => lo
  | fuel + 1, lo, hi =>
    if lo < hi then
      let mid := (lo + hi) / 2
      if a.getD mid 0 < i then countBelow a i fuel (mid + 1) hi else countBelow a i fuel lo mid
    else lo

/-- The number of the line that holds a position. -/
def lineAt (s : Source) (i : Nat) : Nat :=
  countBelow s.feeds i (s.feeds.size + 1) 0 s.feeds.size + 1

/-- The text between two positions. -/
def slice (s : Source) (start stop : Nat) : String :=
  Text.decodeReplacing (s.bytes.extract start stop)

/-- The text of a line, counted from one, without the blanks around it. -/
def lineText (s : Source) (line : Nat) : String :=
  if 1 ≤ line ∧ line ≤ s.feeds.size + 1 then
    let start := if line = 1 then 0 else s.feeds.getD (line - 2) 0 + 1
    Text.strip (s.slice start (s.feeds.getD (line - 1) s.size))
  else ""

def leaf (s : Source) (k : Kind) (start stop : Nat) : Node :=
  .mk k none start stop (s.lineAt start) (s.slice start stop) []

/-- The node that spans the given children. -/
def span (s : Source) (k : Kind) (children : List Node) : Node :=
  let start := (children.head?.map Node.start).getD 0
  let stop := (children.getLast?.map Node.stop).getD start
  .mk k none start stop (s.lineAt start) (s.slice start stop) children

/-- Whether the bytes of an ASCII text stand at a position. -/
def looksAt (s : Source) (i : Nat) (word : String) : Bool :=
  go i word.toUTF8.toList
where
  go (i : Nat) : List UInt8 → Bool
    | [] => true
    | b :: bs => i < s.size && s.byte i == b && go (i + 1) bs

/-- The character at a position and its size in bytes. -/
def char? (s : Source) (i : Nat) : Option (Char × Nat) :=
  if i < s.size then
    match Text.utf8Step (s.byte i) (s.bytes.extract (i + 1) (i + 4)).toList with
    | .char c size => some (c, size)
    | .fault .. => none
  else none

/-- The number of bytes of a blank at a position: ASCII white space, the no-break space, the word
joiner, the zero-width space and the byte order mark. -/
def blankSize (s : Source) (i : Nat) : Nat :=
  let b := s.byte i
  if s.size ≤ i then 0
  else if (9 ≤ b && b ≤ 13) || b == 32 then 1
  else if b == 0xC2 && s.byte (i + 1) == 0xA0 then 2
  else if b == 0xE2 && s.byte (i + 1) == 0x80 && s.byte (i + 2) == 0x8B then 3
  else if b == 0xE2 && s.byte (i + 1) == 0x81 && s.byte (i + 2) == 0xA0 then 3
  else if b == 0xEF && s.byte (i + 1) == 0xBB && s.byte (i + 2) == 0xBF then 3
  else 0

def skipBlanks (s : Source) : Nat → Nat → Nat
  | 0, i => i
  | fuel + 1, i =>
    match s.blankSize i with
    | 0 => i
    | n => s.skipBlanks fuel (i + n)

/-- The first position from `i` on, at most `fuel` further, where `stop` holds. -/
def find (s : Source) (stop : Nat → Bool) : Nat → Nat → Nat
  | 0, i => i
  | fuel + 1, i => if s.size ≤ i || stop i then i else s.find stop fuel (i + 1)

/-- Where `stop` first holds from `i` on; the end of the source if nowhere. -/
def seek (s : Source) (stop : Nat → Bool) (i : Nat) : Nat :=
  s.find stop (s.size - i) i

def isLineEnd (s : Source) (i : Nat) : Bool :=
  s.byte i == 10 || s.byte i == 13

/-- The end of the comment that starts at a position. A line comment ends before the end of its
line or a closing tag; `#[` starts no comment. -/
def commentEnd? (s : Source) (i : Nat) : Option Nat :=
  if s.looksAt i "/*" then
    some (min s.size (s.seek (fun j => s.looksAt j "*/") (i + 2) + 2))
  else if s.looksAt i "//" || (s.looksAt i "#" && !s.looksAt i "#[") then
    some (s.seek (fun j => s.isLineEnd j || s.looksAt j "?>") i)
  else none

/-- The end of an opening tag at a position. -/
def tagEnd? (s : Source) (i : Nat) : Option Nat :=
  if s.looksAt i "<?" then
    let b := fun k => s.byte (i + k)
    let isPhp := (b 2 ||| 32) == 112 && (b 3 ||| 32) == 104 && (b 4 ||| 32) == 112
    some (if isPhp then i + 5 else if s.looksAt (i + 2) "=" then i + 3 else i + 2)
  else none

/-- Plain text from a position up to the next opening tag, without leading blanks, if any. -/
def plain (s : Source) (i : Nat) : Option Node × Nat :=
  let start := s.skipBlanks (s.size - i) i
  let stop := s.seek (fun j => s.looksAt j "<?") start
  (if start < stop then some (s.leaf .text start stop) else none, stop)

/-- A closing tag, the text after it and the next opening tag. -/
def interpolation (s : Source) (i : Nat) : Node :=
  let (text, stop) := s.plain (i + 2)
  let tag := (s.tagEnd? stop).map (s.leaf .phpTag stop)
  s.span .textInterpolation (s.leaf .token i (i + 2) :: text.toList ++ tag.toList)

/-- Skips blanks and comments. -/
def skipComments (s : Source) : Nat → Nat → Nat
  | 0, i => i
  | fuel + 1, i =>
    let i := s.skipBlanks (s.size - i) i
    match s.commentEnd? i with
    | some j => s.skipComments fuel j
    | none => i

/-- The start of the next token: blanks, comments and plain text are skipped. -/
def skipTrivia (s : Source) : Nat → Nat → Nat
  | 0, i => i
  | fuel + 1, i =>
    let i := s.skipComments (s.size - i + 1) i
    if s.looksAt i "?>" then s.skipTrivia fuel (s.interpolation i).stop else i

/-- The comments and passages of plain text between two positions. -/
def extras (s : Source) (stop : Nat) (acc : List Node) : Nat → Nat → List Node
  | 0, _ => acc.reverse
  | fuel + 1, i =>
    let i := s.skipBlanks (s.size - i) i
    if stop ≤ i then acc.reverse
    else match s.commentEnd? i with
      | some j => s.extras stop (s.leaf .comment i j :: acc) fuel j
      | none =>
        if s.looksAt i "?>" then
          let n := s.interpolation i
          s.extras stop (n :: acc) fuel n.stop
        else acc.reverse

/-- Whether a character may stand in a name, apart from digits. -/
def isNameChar (c : Char) : Bool :=
  let n := c.toNat
  if n < 128 then c.isAlpha || c == '_'
  else n ≤ 0xFFFF && n != 0xA0 && n != 0x200B && n != 0x2060 && n != 0xFEFF

/-- The end of the run of name characters and digits from a position on. -/
def nameEnd (s : Source) : Nat → Nat → Nat
  | 0, i => i
  | fuel + 1, i =>
    match s.char? i with
    | some (c, n) => if isNameChar c || c.isDigit then s.nameEnd fuel (i + n) else i
    | none => i

def startsName (s : Source) (i : Nat) : Bool :=
  match s.char? i with
  | some (c, _) => isNameChar c
  | none => false

/-- The end of the name at a position. -/
def nameEnd? (s : Source) (i : Nat) : Option Nat :=
  if s.startsName i then some (s.nameEnd (s.size - i) i) else none

def isDigitAt (s : Source) (i : Nat) : Bool :=
  48 ≤ s.byte i && s.byte i ≤ 57

/-- The end of a run of digits and underscores. -/
def digitsEnd (s : Source) (i : Nat) : Nat :=
  s.seek (fun j => !(s.isDigitAt j || s.byte j == 95)) i

/-- The end and kind of the number at a position. -/
def number? (s : Source) (i : Nat) : Option (Kind × Nat) :=
  let lower := fun j => s.byte j ||| 32
  let isHex := fun j => s.isDigitAt j || (97 ≤ lower j && lower j ≤ 102) || s.byte j == 95
  if s.byte i == 48 && (lower (i + 1) == 120) && isHex (i + 2) then
    some (.integer, s.seek (fun j => !isHex j) (i + 2))
  else if s.byte i == 48 && [98, 111].contains (lower (i + 1)) && s.isDigitAt (i + 2) then
    some (.integer, s.digitsEnd (i + 2))
  else if s.isDigitAt i || (s.byte i == 46 && s.isDigitAt (i + 1)) then
    let whole := s.digitsEnd i
    let hasPoint := s.byte whole == 46 && !s.looksAt whole "..."
    let frac := if hasPoint then s.digitsEnd (whole + 1) else whole
    let sign := if s.byte (frac + 1) == 43 || s.byte (frac + 1) == 45 then 1 else 0
    if lower frac == 101 && s.isDigitAt (frac + 1 + sign) then
      some (.float, s.digitsEnd (frac + 1 + sign))
    else some (if hasPoint then .float else .integer, frac)
  else none

/-- Punctuation, longest first. -/
def operators : List String :=
  ["<<<", "?->", "...", "**=", "<=>", "===", "!==", "<<=", ">>=", "??=",
    "->", "=>", "::", "++", "--", "**", "*=", "/=", "%=", "+=", "-=", ".=", "&=", "^=", "|=", "||",
    "&&", "??", "==", "!=", "<>", "<=", ">=", "<<", ">>", "#[", "|>",
    "(", ")", "[", "]", "\x7b", "\x7d", ";", ",", ".", "=", "<", ">", "+", "-", "*", "/", "%", "!",
    "&", "|", "^", "~", "@", "?", ":", "$", "\\", "\x60", "'", "\""]

/-- The longest punctuation at a position; empty if there is none. -/
def operatorAt (s : Source) (i : Nat) : String :=
  if s.size ≤ i || s.looksAt i "?>" then ""
  else (operators.find? (s.looksAt i)).getD ""

end Source

end PluginAudit.Php
