import PluginAudit.Text.Recognizer
import PluginAudit.Text.Parts

namespace PluginAudit.Lines

open Text Recognizer

/-- A letter, digit or underscore of ASCII, or a letter equal to one when case is ignored. -/
def isNameChar (c : Char) : Bool :=
  let f := foldChar c
  f.isAlphanum || f == '_'

/-- A name character that is no digit. -/
def isNameStart (c : Char) : Bool :=
  isNameChar c && !c.isDigit

/-- The names that are not empty, the longest first, so that none hides a longer one. -/
def byLength (names : List String) : List String :=
  (sortedSet (names.filter (· != ""))).mergeSort fun a b => decide (b.length ≤ a.length)

/-- One of the words, which are in order of preference, between characters of no name. -/
def wordOf (ws : List String) : Recognizer String := do
  notAfter isNameChar
  let w ← text (oneOf ws)
  notBefore isNameChar
  return w

/-- Whether the last characters of a text, read backwards, are those of `mark`. -/
def endsIn (mark : String) (before : List Char) : Bool :=
  let last := mark.toList.reverse
  last.length ≤ before.length && (last.zip before).all fun e => sameFolded e.1 e.2

/-- What stands before the name of a method, a variable, a qualified name or a declaration. -/
def memberMarks : List String := ["->", "::", "$", "\\", "function "]

/-- A call of one of the functions by its bare name. -/
def callOf (ws : List String) : Recognizer String := do
  behind fun before => !memberMarks.any fun m => endsIn m before
  let w ← wordOf ws
  blanks
  word "("
  return w

def variableName : Recognizer Unit := do
  word "$"
  span isWord

/-- A variable, an element, a static property or a property, and the equals sign after it. -/
def assignmentTarget : Recognizer Unit := do
  orElse variableName
    (orElse (do variableName; word "["; upTo ']')
      (orElse (do span isWord; word "::"; variableName)
        (do variableName; word "->"; span isWord)))
  blanks
  word "="
  blanks

/-- An assignment of one of the words, which `closing` follows. -/
def assignmentOf (ws : List String) (closing : String) : Recognizer String := do
  assignmentTarget
  let w ← wordOf ws
  blanks
  word closing
  return w

/-- One of the words as the only argument of a call. -/
def argumentOf (ws : List String) : Recognizer String := do
  edge
  span isWord
  blanks
  word "("
  blanks
  let w ← wordOf ws
  blanks
  word ")"
  return w

def isBackslash (c : Char) : Bool :=
  c == '\\'

/-- The parts of a namespace. -/
def namespaceParts (ns : String) : List String :=
  words isBackslash ns

/-- The parts one after the other, with one or two backslashes between them. -/
def partsInOrder : List String → Recognizer Unit
  | [] => pure ()
  | [part] => word part
  | part :: rest => do
    word part
    times '\\' 1 2
    partsInOrder rest

def namespaceName (ns : String) : Recognizer Unit :=
  partsInOrder (namespaceParts ns)

def isNameCharOrBackslash (c : Char) : Bool :=
  isNameChar c || c == '\\'

/-- A class by its full name, or by the last part of it. -/
def className (cls : String) : Recognizer String := do
  notAfter isNameCharOrBackslash
  let short := lastPart '\\' cls
  let n ← text
    (if short == cls then namespaceName cls
      else orElse (do optional (word "\\"); namespaceName cls) (word short))
  notBefore isNameChar
  return n

def instantiationOf (cls : String) : Recognizer String := do
  edge
  word "new"
  someBlanks
  let n ← className cls
  blanks
  word "("
  return n

def constructorOf (cls : String) : Recognizer String := do
  let n ← className cls
  blanks
  word "::"
  blanks
  word "__construct"
  blanks
  word "("
  return n

def classConstantOf (cls : String) : Recognizer String := do
  let n ← className cls
  blanks
  word "::"
  blanks
  word "class"
  edge
  return n

/-- A static method of a class: the class as written, and the method. -/
def methodOf (cls : String) : Recognizer (String × String) := do
  let n ← className cls
  word "::"
  ahead fun after => after.head?.any isNameStart
  let m ← text (span isNameChar)
  return (n, m)

/-- A name that is the namespace or lies inside it. -/
def referenceTo (ns : String) : Recognizer Unit := do
  notAfter isNameCharOrBackslash
  times '\\' 0 2
  namespaceName ns
  orElse (times '\\' 1 2) (notBefore isNameChar)

def isQuote (c : Char) : Bool :=
  c == '\'' || c == '"'

/-- A quoted name that is the namespace or lies inside it. -/
def stringNaming (ns : String) : Recognizer Unit := do
  one isQuote
  times '\\' 0 2
  namespaceName ns
  optional (do times '\\' 1 2; run fun c => !isQuote c)
  one isQuote

/-- An import at the beginning of a line: the clause between `use` and the semicolon. -/
def importClause : Recognizer String := do
  blanks
  word "use"
  someBlanks
  let clause ← text (do one (· != ';'); run (· != ';'))
  word ";"
  return clause

end PluginAudit.Lines
