import PluginAudit.Php.Source
import PluginAudit.Text.Case

namespace PluginAudit.Php

/-- A parser found no way on; `atEnd` tells that the source ended too early. -/
structure Stuck where
  atEnd : Bool

/-- Reads from the position it is given, and yields the position after what it read. -/
abbrev Parser := ReaderT Source (StateT Nat (Except Stuck))

namespace Parser

/-- The start of the next token. -/
def peek : Parser Nat := do
  let s ← read
  return s.skipTrivia (s.size + 1) (← get)

def stuck {α : Type} : Parser α := do
  let s ← read
  throw ⟨s.size ≤ (← peek)⟩

def guard (ok : Bool) : Parser Unit :=
  if ok then pure () else stuck

def leaf (k : Kind) (start stop : Nat) : Parser Node := do
  set stop
  return (← read).leaf k start stop

def span (k : Kind) (children : List Node) : Parser Node := do
  return (← read).span k children

/-- The punctuation at the next token; empty for other tokens. -/
def peekOperator : Parser String := do
  return (← read).operatorAt (← peek)

/-- Reads the given punctuation. -/
def operator (op : String) : Parser Node := do
  let i ← peek
  guard ((← read).operatorAt i == op)
  leaf .token i (i + op.utf8ByteSize)

/-- Reads the given punctuation, if it comes next. -/
def operator? (op : String) : Parser (List Node) := do
  if (← peekOperator) == op then return [← operator op] else return []

/-- The next word in lower case; empty for other tokens. -/
def peekWord : Parser String := do
  let s ← read
  let i ← peek
  match s.nameEnd? i with
  | some j => return Text.lower (s.slice i j)
  | none => return ""

/-- Reads a word of any spelling. -/
def word (k : Kind) : Parser Node := do
  let i ← peek
  match (← read).nameEnd? i with
  | some j => leaf k i j
  | none => stuck

/-- Reads the given word, whatever its case. -/
def keywordAs (k : Kind) (w : String) : Parser Node := do
  guard ((← peekWord) == w)
  word k

def keyword (w : String) : Parser Node :=
  keywordAs .token w

def keyword? (w : String) : Parser (List Node) := do
  if (← peekWord) == w then return [← keyword w] else return []

def name : Parser Node :=
  word .name

/-- The parser's result, or none if it is stuck, from the same position on. -/
def optional {α : Type} (p : Parser α) : Parser (Option α) := fun s i =>
  match p s i with
  | .ok (a, j) => .ok (some a, j)
  | .error _ => .ok (none, i)

/-- Whether the parser would succeed here. -/
def succeeds {α : Type} (p : Parser α) : Parser Bool := fun s i =>
  match p s i with
  | .ok _ => .ok (true, i)
  | .error _ => .ok (false, i)

/-- Runs the parser until it yields nothing or no longer moves on. -/
def gather (p : Parser (Option (List Node))) (acc : List Node) : Nat → Parser (List Node)
  | 0 => return acc.reverse
  | fuel + 1 => do
    let before ← get
    match ← p with
    | none => return acc.reverse
    | some ns =>
      if before < (← get) then gather p (ns.reverse ++ acc) fuel
      else return (ns.reverse ++ acc).reverse

/-- All that the parser yields until it yields nothing. -/
def many (p : Parser (Option (List Node))) : Parser (List Node) := do
  gather p [] ((← read).size + 1)

/-- Items between commas up to the closing punctuation, which is not read; a comma may come last,
and `p` may read nothing between two commas. -/
def commaList (p : Parser (List Node)) (close : String) : Parser (List Node) :=
  many do
    let op ← peekOperator
    if op == close then return none
    else if op == "," then return some [← operator ","]
    else
      let item ← p
      let next ← peekOperator
      guard (next == "," || next == close)
      return some item

/-- One or more items between commas. -/
def commaList1 (p : Parser (List Node)) : Parser (List Node) := do
  let first ← p
  let rest ← many do
    if (← peekOperator) == "," then
      let comma ← operator ","
      return some (comma :: (← p))
    else return none
  return first ++ rest

/-- The end of a statement: a semicolon, or nothing before a closing tag. -/
def semicolon : Parser (List Node) := do
  let s ← read
  let i := s.skipComments (s.size + 1) (← get)
  if s.looksAt i "?>" then return [] else return [← operator ";"]

end Parser

/-- The entry points of the grammar that call each other. -/
inductive Rule where
  | statement
  /-- An expression whose binary operators bind at least as tightly as `level`. -/
  | expression (level : Nat)

/-- A reading of every rule, on which the productions are built. -/
abbrev Grammar := Rule → Parser Node

def Grammar.expression (g : Grammar) : Parser Node :=
  g (.expression 0)

end PluginAudit.Php
