import PluginAudit.Text.Parts

namespace PluginAudit.Text

/-- A part of a shell pattern. -/
inductive GlobPart where
  /-- Any text, line feeds and slashes included. -/
  | star
  | anyChar
  | char (c : Char)
  /-- One character that is in some range, or in none if the set is negated. -/
  | set (negated : Bool) (ranges : List (Char × Char))
  deriving DecidableEq, Repr

namespace GlobPart

def accepts (p : GlobPart) (c : Char) : Bool :=
  match p with
  | .star => false
  | .anyChar => true
  | .char d => c == d
  | .set negated ranges => (ranges.any fun r => r.1 ≤ c && c ≤ r.2) != negated

end GlobPart

abbrev Glob := List GlobPart

namespace Glob

/-- The characters of a set up to the bracket that closes it, and what follows. A bracket right at
the beginning, or after an exclamation mark there, closes nothing. -/
def setBody (cs : List Char) : Option (List Char × List Char) :=
  let (mark, rest) :=
    match cs with
    | '!' :: rest => (['!'], rest)
    | _ => ([], cs)
  let (first, rest) :=
    match rest with
    | ']' :: rest => ([']'], rest)
    | _ => ([], rest)
  match rest.dropWhile (· != ']') with
  | [] => none
  | _ :: after => some (mark ++ first ++ rest.takeWhile (· != ']'), after)

/-- Splits the body of a set at the hyphens that make ranges: after each there is at least one
character before the next, and `lead` characters stand before the first. -/
def chunks (lead : Nat) (chunk : List Char) : List Char → List (List Char)
  | [] => [chunk.reverse]
  | c :: rest =>
    if c == '-' && lead == 0 then chunk.reverse :: chunks 2 [] rest
    else chunks (lead - 1) (c :: chunk) rest

/-- A hyphen at the end of a set is a plain one. -/
def closeLast (cs : List (List Char)) : List (List Char) :=
  match cs.reverse with
  | [] :: last :: front => ((last ++ ['-']) :: front).reverse
  | _ => cs

/-- Takes out the ranges whose ends are in the wrong order, with their ends. -/
def dropEmptyRanges : List (List Char) → List (List Char)
  | [] => []
  | chunk :: rest =>
    match dropEmptyRanges rest with
    | [] => [chunk]
    | next :: more =>
      match chunk.getLast?, next with
      | some a, b :: tail =>
        if b < a then (chunk.dropLast ++ tail) :: more else chunk :: next :: more
      | _, _ => chunk :: next :: more

/-- The ranges of a chunk and of those after it: from the end of one to the beginning of the next,
and all other characters by themselves. -/
def rangesFrom (chunk : List Char) : List (List Char) → List (Char × Char)
  | [] => chunk.map fun c => (c, c)
  | next :: more =>
    match chunk.getLast?, next with
    | some a, b :: tail =>
      (chunk.dropLast.map fun c => (c, c)) ++ (a, b) :: rangesFrom tail more
    | _, _ => (chunk.map fun c => (c, c)) ++ rangesFrom next more

/-- The set with the given body. -/
def setOf (body : List Char) : GlobPart :=
  let lead := if body.head? == some '!' then 2 else 1
  match dropEmptyRanges (closeLast (chunks lead [] body)) with
  | ('!' :: first) :: more => .set true (rangesFrom first more)
  | first :: more => .set false (rangesFrom first more)
  | [] => .set false []

/-- Reads a pattern. A bracket that is never closed stands for itself. -/
def parse : Nat → List Char → Glob
  | 0, _ => []
  | _, [] => []
  | fuel + 1, c :: rest =>
    if c == '*' then
      match parse fuel rest with
      | .star :: more => .star :: more
      | more => .star :: more
    else if c == '?' then .anyChar :: parse fuel rest
    else if c == '[' then
      match setBody rest with
      | some (body, after) => setOf body :: parse fuel after
      | none => .char c :: parse fuel rest
    else .char c :: parse fuel rest

def ofText (pattern : String) : Glob :=
  let cs := pattern.toList
  parse (cs.length + 1) cs

/-- Whether some tail of a list passes a test. -/
def anyTail (test : List Char → Bool) : List Char → Bool
  | [] => test []
  | c :: rest => test (c :: rest) || anyTail test rest

/-- Whether a pattern matches all of a list of characters. -/
def matchesChars : Glob → List Char → Bool
  | [], cs => cs.isEmpty
  | .star :: ps, cs => anyTail (matchesChars ps) cs
  | _ :: _, [] => false
  | p :: ps, c :: rest => p.accepts c && matchesChars ps rest

def matchesText (g : Glob) (s : String) : Bool :=
  g.matchesChars s.toList

end Glob

end PluginAudit.Text
