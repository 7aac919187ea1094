import PluginAudit.Php.Grammar.Statements

namespace PluginAudit.Php

/-- The rules of the grammar; every nested use of one costs a unit of fuel. -/
def grammar : Nat → Grammar
  | 0, _ => Parser.stuck
  | fuel + 1, .statement => Grammar.statement (grammar fuel)
  | fuel + 1, .expression level => Grammar.expressionAt (grammar fuel) level

/-- Nesting can use a rule at most twice for each byte. -/
def Source.grammar (s : Source) : Grammar :=
  Php.grammar (2 * s.size + 16)

namespace Source

/-- A statement, or a fragment where none can be read. -/
def statementOrFragment (s : Source) (i : Nat) : Option (Node × Nat) :=
  match s.grammar .statement s i with
  | .ok r => some r
  | .error _ =>
    match Grammar.fragment s.grammar s i with
    | .ok r => some r
    | .error _ => none

/-- The statements from a position up to the end of the source. -/
def statements (s : Source) (acc : List Node) : Nat → Nat → List Node
  | 0, _ => acc.reverse
  | fuel + 1, i =>
    if s.size ≤ s.skipTrivia (s.size + 1) i then acc.reverse
    else match s.statementOrFragment i with
      | some (n, j) => if i < j then s.statements (n :: acc) fuel j else (n :: acc).reverse
      | none => acc.reverse

mutual

/-- Puts the comments and passages of plain text between the children of each node. Inside a string
there are none. -/
def fill (s : Source) : Node → Node
  | .mk k r b e l t cs =>
    .mk k r b e l t (if k.isString || k == .shellCommandExpression then s.fillEach cs
      else s.fillFrom none cs)

def fillEach (s : Source) : List Node → List Node
  | [] => []
  | c :: cs => s.fill c :: s.fillEach cs

/-- Fills a list of children, the last of which ended at `since`. -/
def fillFrom (s : Source) (since : Option Nat) : List Node → List Node
  | [] => []
  | c :: cs =>
    let between :=
      match since with
      | some i => if i < c.start then s.extras c.start [] (s.size + 1) i else []
      | none => []
    between ++ s.fill c :: s.fillFrom (some c.stop) cs

end

/-- The syntax tree of a source: text up to the first opening tag, then statements. -/
def tree (s : Source) : Node :=
  let (text, i) := s.plain 0
  let tag := (s.tagEnd? i).map (s.leaf .phpTag i)
  let start := (tag.map Node.stop).getD s.size
  let body := s.statements [] (s.size + 1) start
  let nodes := text.toList ++ tag.toList ++ body
  let last := (nodes.getLast?.map Node.stop).getD 0
  let children := s.fillFrom none nodes ++ s.extras s.size [] (s.size + 1) last
  let first := (children.head?.map Node.start).getD s.size
  .mk .program none first s.size (s.lineAt first) (s.slice first s.size) children

end Source

end PluginAudit.Php
