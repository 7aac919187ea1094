import PluginAudit.Php.Grammar.Types

namespace PluginAudit.Php.Grammar

open Php.Parser

/-- Reads one token of any sort. A quote that opens no string takes all that follows. -/
def anyToken : Parser Node := do
  let s ← read
  let i ← peek
  if s.size ≤ i then stuck
  else match s.nameEnd? i with
    | some j => leaf .name i j
    | none =>
      match s.number? i with
      | some (k, j) => leaf k i j
      | none =>
        let op := s.operatorAt i
        if op == "'" || op == "\"" || op == "\x60" then leaf .token i s.size
        else if op != "" then leaf .token i (i + op.utf8ByteSize)
        else leaf .token i (i + ((s.char? i).map Prod.snd).getD 1)

/-- What stands where no statement can be read: an expression if possible, otherwise a token. -/
def fragment (g : Grammar) : Parser Node := do
  match ← optional g.expression with
  | some e => span .error [e]
  | none => span .error [← anyToken]

/-- A statement, or a fragment where none can be read before the source ends. -/
def statementOrFragment (g : Grammar) : Parser Node := fun s i =>
  match g .statement s i with
  | .error ⟨false⟩ => fragment g s i
  | r => r

/-- Statements up to one of the given words or a closing brace. -/
def statements (g : Grammar) (stops : List String) : Parser (List Node) :=
  many do
    if (← peekOperator) == "\x7d" then return none
    else
      let w ← peekWord
      if w != "" && stops.contains w then return none
      else return some [← statementOrFragment g]

/-- Statements in braces. -/
def compound (g : Grammar) : Parser Node := do
  let opening ← operator "\x7b"
  let body ← statements g []
  span .compoundStatement (opening :: body ++ [← operator "\x7d"])

/-- Statements after a colon, up to one of the given words. -/
def colonBlock (g : Grammar) (stops : List String) : Parser Node := do
  let colon ← operator ":"
  span .colonBlock (colon :: (← statements g stops))

end PluginAudit.Php.Grammar
