import PluginAudit.Lines.Patterns

namespace PluginAudit.Lines

open Text Recognizer

/-- What may stand in front of an imported name. -/
def importKinds : List String := ["function", "const"]

/-- The text without the kind of import in front of it. -/
def withoutKind (s : String) : String :=
  let kind : Recognizer Unit := do
    oneOf importKinds
    someBlanks
  match (kind.read ⟨[], s.toList⟩).head? with
  | some (_, p) => String.ofList p.after
  | none => s

/-- The items between commas that are not empty. -/
def importItems (s : String) : List String :=
  ((splitBy (· == ',') s).map fun item => withoutKind (strip item)).filter (· != "")

/-- The text before the first ` as `. -/
def withoutAlias (item : String) : String :=
  let start : Recognizer (List Char) := do
    let before : List Char ← ⟨fun p => [(p.before, p)]⟩
    someBlanks
    word "as"
    someBlanks
    return before
  match start.search item with
  | some before => String.ofList before.reverse
  | none => item

/-- The part before the first opening brace, and the part up to the first closing brace after
it. -/
def group? (clause : String) : Option (String × String) := do
  let (front, rest) ← cutAt? "\x7b" clause
  let (items, _) ← cutAt? "\x7d" rest
  return (front, items)

/-- The names that a clause imports, each without its alias. -/
def importedNames (clause : String) : List String :=
  let clause := withoutKind (strip clause)
  let items :=
    match group? clause with
    | some (front, items) =>
      let base := trimRight isBackslash (strip front)
      (importItems items).map fun item => base ++ "\\" ++ item
    | none => importItems clause
  items.map fun item => strip (withoutAlias item)

end PluginAudit.Lines
