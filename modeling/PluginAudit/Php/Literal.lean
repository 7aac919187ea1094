import PluginAudit.Php.Operands

namespace PluginAudit.Php

namespace Literal

/-- The value of a body in single quotes: a backslash hides a backslash or a quote. -/
def decodeSingle : List Char → List Char
  | '\\' :: '\\' :: rest => '\\' :: decodeSingle rest
  | '\\' :: '\'' :: rest => '\'' :: decodeSingle rest
  | c :: rest => c :: decodeSingle rest
  | [] => []

/-- The value of a body in double quotes. Other escapes stand for themselves. -/
def decodeDouble : List Char → List Char
  | '\\' :: '\\' :: rest => '\\' :: decodeDouble rest
  | '\\' :: '"' :: rest => '"' :: decodeDouble rest
  | '\\' :: '$' :: rest => '$' :: decodeDouble rest
  | '\\' :: 'n' :: rest => '\n' :: decodeDouble rest
  | '\\' :: 'r' :: rest => '\r' :: decodeDouble rest
  | '\\' :: 't' :: rest => '\t' :: decodeDouble rest
  | c :: rest => c :: decodeDouble rest
  | [] => []

/-- The lines between the first and the last. -/
def innerLines (raw : String) : String :=
  Text.join "\n" ((Text.linesOf raw).drop 1).dropLast

/-- The value of quoted text, with an optional `b` in front. -/
def unquote (raw : String) : Option String :=
  let cs := raw.toList
  let cs := if cs.head? == some 'b' || cs.head? == some 'B' then cs.drop 1 else cs
  match cs with
  | quote :: next :: rest =>
    let body := (next :: rest).dropLast
    some (String.ofList (if quote == '\'' then decodeSingle body else decodeDouble body))
  | _ => none

end Literal

namespace Node

/-- The parts of a string that hold no code. -/
def isPlainPart (n : Node) : Bool :=
  n.kind == .stringContent

/-- The value of a string literal without code in it, inside any parentheses. -/
def literal? (n : Node) : Option String :=
  let n := n.unwrap
  match n.kind with
  | .nowdoc => some (Literal.innerLines n.text)
  | .heredoc =>
    if (preorderAll n.children).any fun c => c.kind.isInterpolation then none
    else some (Literal.innerLines n.text)
  | .encapsedString =>
    if n.namedChildren.all isPlainPart then Literal.unquote n.text else none
  | .string => Literal.unquote n.text
  | _ => none

end Node

end PluginAudit.Php
