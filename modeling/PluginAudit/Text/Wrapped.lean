import PluginAudit.Text.Blank
import PluginAudit.Text.Parts

namespace PluginAudit.Text

/-- A word with the blanks around it: those in front of it belong to the first word only. -/
def nextWord (cs : List Char) : List Char × List Char :=
  let lead := cs.takeWhile isBlank
  let rest := cs.drop lead.length
  let core := rest.takeWhile fun c => !isBlank c
  let rest := rest.drop core.length
  let tail := rest.takeWhile isBlank
  (lead ++ core ++ tail, rest.drop tail.length)

/-- The words of a line, each with the blanks behind it. -/
def wordsOf : Nat → List Char → List (List Char)
  | 0, _ => []
  | fuel + 1, cs =>
    let (word, rest) := nextWord cs
    if word.all isBlank then [] else word :: wordsOf fuel rest

/-- Pieces of at most `width` characters. -/
def chopped (width : Nat) : Nat → List Char → List (List Char)
  | 0, _ => []
  | fuel + 1, cs =>
    if cs.length ≤ width then [cs] else cs.take width :: chopped width fuel (cs.drop width)

/-- Puts words on lines, of which `line` is the last. A word that fits on no line is broken. -/
def fill (width : Nat) (line : List Char) : List (List Char) → List (List Char)
  | [] => [line]
  | word :: rest =>
    let size := (word.reverse.dropWhile isBlank).length
    if size ≤ width - line.length && line.length ≤ width then fill width (line ++ word) rest
    else if width < size then
      match (chopped width (word.length + 1) word).reverse with
      | last :: front =>
        (if line.isEmpty then [] else [line]) ++ front.reverse ++ fill width last rest
      | [] => fill width line rest
    else if line.isEmpty then fill width word rest
    else line :: fill width word rest

/-- The lines of a text, none wider than `width`. -/
def wrapped (width : Nat) (s : String) : List String :=
  (linesOf s).flatMap fun line =>
    (fill width [] (wordsOf (line.length + 1) line.toList)).map String.ofList

/-- A text on one line: the lines of the wrapped text without the blanks around them, and one blank
between them. -/
def inCell (width : Option Nat) (s : String) : String :=
  let lines :=
    match width with
    | some n => wrapped n s
    | none => linesOf s
  join " " ((lines.map strip).filter (· != ""))

end PluginAudit.Text
