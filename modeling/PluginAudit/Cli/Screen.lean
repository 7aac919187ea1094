import PluginAudit.Text.Markup
import PluginAudit.Text.Wrapped
import PluginAudit.Value

namespace PluginAudit.Cli

/-- A column of a table, with the width at which its cells are broken. -/
structure Column where
  title : String
  width : Option Nat := none

/-- Something that is shown: text without tags, or a table of such texts. -/
inductive Block where
  | text (s : String)
  | table (title : String) (columns : List String) (rows : List (List String))
  deriving Repr

namespace Block

/-- A text with its tags taken away. -/
def ofMarkup (s : String) : Except Fault Block :=
  (Text.withoutTags s).map .text

/-- A table whose cells have tags. -/
def ofRows (title : String) (columns : List Column) (rows : List (List String)) :
    Except Fault Block := do
  let shown ← rows.mapM fun row =>
    (row.zip columns).mapM fun (cell, column) => do
      return Text.inCell column.width (← Text.withoutTags cell)
  return .table title (columns.map Column.title) shown

/-- A text with blanks behind it up to a width. -/
def padded (width : Nat) (s : String) : String :=
  s ++ String.ofList (List.replicate (width - s.length) ' ')

/-- The widths of the columns of a table. -/
def widths (rows : List (List String)) : List Nat :=
  rows.foldl (fun ws row =>
    let sizes := row.map String.length
    (List.range (max ws.length sizes.length)).map fun i => max (ws.getD i 0) (sizes.getD i 0)) []

/-- A block as lines; the columns of a table stand two blanks apart. -/
def render : Block → String
  | .text s => s
  | .table title columns rows =>
    let rows := columns :: rows
    let ws := widths rows
    let line (row : List String) : String :=
      Text.trimRight (· == ' ') (Text.join "  " ((ws.zip row).map fun c => padded c.1 c.2))
    Text.join "\n" (title :: rows.map line)

end Block

/-- The standard output of a command. -/
inductive Output where
  | text (s : String)
  | json (v : Value)

/-- How a command ends, and what it shows on both channels. -/
structure Outcome where
  exitCode : Nat
  output : Output := .text ""
  blocks : List Block := []

end PluginAudit.Cli
