import PluginAudit.Lines.Patterns

namespace PluginAudit.Lines

/-- The characters that mean something in a regular expression. -/
def specialChars : List Char :=
  ['(', ')', '[', ']', '\x7b', '\x7d', '?', '*', '+', '-', '|', '^', '$', '\\', '.', '&', '~',
    '#', ' ', '\t', '\n', '\r', '\x0b', '\x0c']

/-- A text as the expression that matches just it. -/
def escaped (s : String) : String :=
  String.ofList (s.toList.flatMap fun c => if specialChars.contains c then ['\\', c] else [c])

/-- The names as alternatives, the longest first. -/
def alternatives (names : List String) : String :=
  Text.join "|" ((byLength names).map escaped)

/-- The names as whole words; none if there are no names. -/
def wordExpression? (names : List String) : Option String :=
  let alts := alternatives names
  if alts == "" then none else some s!"(?<![A-Za-z0-9_])({alts})(?![A-Za-z0-9_])"

/-- A namespace, with one or two backslashes between its parts. -/
def namespaceExpression (ns : String) : String :=
  Text.join "\\\\\x7b1,2\x7d" ((namespaceParts ns).map escaped)

end PluginAudit.Lines
