import PluginAudit.Php.Grammar.Names

namespace PluginAudit.Php.Grammar

open Php.Parser

/-- Reads one token at the current position, without skipping blanks. -/
def exactly (op : String) : Parser Node := do
  let i ← get
  guard ((← read).looksAt i op)
  leaf .token i (i + op.utf8ByteSize)

def nameHere (k : Kind) : Parser Node := do
  let i ← get
  match (← read).nameEnd? i with
  | some j => leaf k i j
  | none => stuck

def variableHere : Parser Node := do
  span .variableName [← exactly "$", ← nameHere .name]

def integerHere : Parser Node := do
  let s ← read
  let i ← get
  guard (s.isDigitAt i)
  leaf .integer i (s.digitsEnd i)

/-- An index inside a string: a number, a name or a variable. -/
def indexHere : Parser Node := do
  let s ← read
  let i ← get
  if s.looksAt i "-" then span .unaryOpExpression [← exactly "-", ← integerHere]
  else if s.looksAt i "$" then variableHere
  else if s.isDigitAt i then integerHere
  else nameHere .name

/-- A variable inside a string, with an index or a property directly behind it. -/
def embeddedVariable : Parser Node := do
  let base ← variableHere
  let s ← read
  let i ← get
  if s.looksAt i "[" then
    match ← optional (do return [← exactly "[", ← indexHere, ← exactly "]"]) with
    | some rest => span .subscriptExpression (base :: rest)
    | none => return base
  else if s.looksAt i "->" && s.startsName (i + 2) then
    let arrow ← exactly "->"
    let field ← nameHere .name
    span .memberAccessExpression [base.withRole .object, arrow, field.withRole .name]
  else return base

/-- The pieces of a string from position `i` on, where plain text has run since `since`. The string
ends before the byte `close`, or at `limit`. -/
def pieces (g : Grammar) (close : Option UInt8) (limit : Nat) (acc : List Node) :
    Nat → Nat → Nat → Parser (List Node)
  | 0, _, _ => stuck
  | fuel + 1, since, i => do
    let s ← read
    let plain := if since < i then s.leaf .stringContent since i :: acc else acc
    if limit ≤ i then
      set limit
      if close.isNone then return plain.reverse else stuck
    else if some (s.byte i) == close then
      set i
      return plain.reverse
    else if s.byte i == 92 then
      pieces g close limit acc fuel since (if s.isLineEnd (i + 1) then i + 1 else i + 2)
    else if s.looksAt i "$\x7b" then
      set i
      let dollar ← exactly "$"
      let opening ← exactly "\x7b"
      let inner ← g.expression
      let closing ← operator "\x7d"
      let n ← span .dynamicVariableName [dollar, opening, inner, closing]
      pieces g close limit (n :: plain) fuel (← get) (← get)
    else if s.looksAt i "$" && s.startsName (i + 1) then
      set i
      let n ← embeddedVariable
      pieces g close limit (n :: plain) fuel (← get) (← get)
    else if s.looksAt i "\x7b$" then
      set i
      let opening ← exactly "\x7b"
      let inner ← g.expression
      let closing ← operator "\x7d"
      pieces g close limit (closing :: inner :: opening :: plain) fuel (← get) (← get)
    else pieces g close limit acc fuel since (i + 1)

/-- Skips to the closing quote of a string without code in it. -/
def singleEnd (s : Source) : Nat → Nat → Option Nat
  | 0, _ => none
  | fuel + 1, i =>
    if s.size ≤ i then none
    else if s.byte i == 39 then some (i + 1)
    else singleEnd s fuel (if s.byte i == 92 then i + 2 else i + 1)

/-- A string in single quotes; `i` is its first byte and `quote` that of the quote. -/
def singleQuoted (i quote : Nat) : Parser Node := do
  let s ← read
  match singleEnd s (s.size + 1) (quote + 1) with
  | some j => leaf .string i j
  | none => throw ⟨true⟩

/-- A string or a command between the given quotes, with code in it. -/
def withCode (g : Grammar) (k : Kind) (i quote : Nat) : Parser Node := do
  let s ← read
  let opening := s.leaf .token i (quote + 1)
  let body ← pieces g (some (s.byte quote)) s.size [] (s.size + 2) (quote + 1) (quote + 1)
  let stop ← get
  let closing ← leaf .token stop (stop + 1)
  span k (opening :: body ++ [closing])

/-- The position of the closing label in one of the lines from `i` on. -/
def labelLine (s : Source) (label : String) : Nat → Nat → Option Nat
  | 0, _ => none
  | fuel + 1, i =>
    let j := s.seek (fun k => s.byte k != 32 && s.byte k != 9) i
    let after := j + label.utf8ByteSize
    if s.looksAt j label && !(s.startsName after || s.isDigitAt after) then some j
    else
      let feed := s.seek (fun k => s.byte k == 10) i
      if feed < s.size then labelLine s label fuel (feed + 1) else none

/-- A string over several lines, up to a line that starts with its label. -/
def labelled (g : Grammar) (i : Nat) : Parser Node := do
  let s ← read
  let j := s.seek (fun k => s.byte k != 32 && s.byte k != 9) (i + 3)
  let quote := if s.looksAt j "'" then "'" else if s.looksAt j "\"" then "\"" else ""
  let start := j + quote.utf8ByteSize
  match s.nameEnd? start with
  | none => stuck
  | some stop =>
    guard (s.looksAt stop quote)
    let feed := s.seek (fun k => s.byte k == 10) stop
    match labelLine s (s.slice start stop) (s.size + 1) (feed + 1) with
    | none => throw ⟨true⟩
    | some close =>
      let stopLabel := close + (stop - start)
      if quote == "'" then leaf .nowdoc i stopLabel
      else
        let head := s.leaf .token i stop
        let body ← pieces g none close [] (s.size + 2) (feed + 1) (feed + 1)
        let tail ← leaf .token close stopLabel
        span .heredoc (head :: body ++ [tail])

/-- Any string literal, with an optional `b` in front. -/
def string (g : Grammar) : Parser Node := do
  let s ← read
  let i ← peek
  let quote := if (s.byte i ||| 32) == 98 then i + 1 else i
  if s.looksAt quote "'" then singleQuoted i quote
  else if s.looksAt quote "\"" then withCode g .encapsedString i quote
  else if s.looksAt i "<<<" then labelled g i
  else stuck

/-- Whether a string literal starts at a position. -/
def startsString (s : Source) (i : Nat) : Bool :=
  let quote := if (s.byte i ||| 32) == 98 then i + 1 else i
  s.looksAt quote "'" || s.looksAt quote "\"" || s.looksAt i "<<<"

/-- A command between backticks. -/
def shellCommand (g : Grammar) : Parser Node := do
  let i ← peek
  guard ((← read).looksAt i "\x60")
  withCode g .shellCommandExpression i i

end PluginAudit.Php.Grammar
