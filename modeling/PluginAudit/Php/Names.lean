import PluginAudit.Php.Operands
import PluginAudit.Table

namespace PluginAudit.Php

/-- What an import clause makes known. -/
inductive ImportKind where
  | className
  | function
  | const
  deriving DecidableEq, Repr

def ImportKind.label : ImportKind → String
  | .className => "class"
  | .function => "function"
  | .const => "const"

/-- One imported name and the name it is known by. -/
structure Import where
  kind : ImportKind
  name : String
  knownAs : String
  deriving Repr

namespace Import

/-- The rest of a text after a word, whatever its case, and at least one blank. -/
def afterWord? (word : String) (cs : List Char) : Option (List Char) :=
  let head := cs.take word.length
  let rest := cs.drop word.length
  let matched := head.length == word.length &&
    (head.zip word.toList).all fun p => Text.sameFolded p.1 p.2
  if matched && rest.head?.any Text.isBlank then some (rest.dropWhile Text.isBlank) else none

/-- The kind that stands in front of an import, and the rest. -/
def kind? (cs : List Char) : Option (ImportKind × List Char) :=
  match afterWord? "function" cs with
  | some rest => some (.function, rest)
  | none => (afterWord? "const" cs).map ((.const, ·))

/-- Splits at each `as` between blanks; `part` (backwards) is the part being read. -/
def splitAlias (part : List Char) (parts : List String) : Nat → List Char → List String
  | 0, cs => (String.ofList (part.reverse ++ cs) :: parts).reverse
  | _, [] => (String.ofList part.reverse :: parts).reverse
  | fuel + 1, c :: rest =>
    if Text.isBlank c then
      match afterWord? "as" (rest.dropWhile Text.isBlank) with
      | some after => splitAlias [] (String.ofList part.reverse :: parts) fuel after
      | none => splitAlias (c :: part) parts fuel rest
    else splitAlias (c :: part) parts fuel rest

/-- The texts of the single imports of a clause: a group in braces gets the name in front of it. -/
def items (clause : String) : List String :=
  let cs := clause.toList
  let front := cs.takeWhile (· != '\x7b')
  if front.length == cs.length then (Text.splitBy (· == ',') clause).map Text.strip
  else
    let rest := cs.drop (front.length + 1)
    let closing := rest.reverse.dropWhile (· != '\x7d')
    let inner :=
      if closing.isEmpty then (if front.contains '\x7d' then [] else rest.dropLast)
      else (closing.drop 1).reverse
    let base := Text.trimBackslashes (Text.strip (String.ofList front))
    (Text.splitBy (· == ',') (String.ofList inner)).map fun i =>
      if base == "" then Text.strip i else base ++ "\\" ++ Text.strip i

/-- Reads one import, whose last part may tell its own kind. -/
def ofItem? (kind : ImportKind) (item : String) : Option Import :=
  let last := Text.lastPart '\\' item
  let (kind, item) :=
    match kind? last.toList with
    | some (k, rest) =>
      (k, Text.takeChars (item.length - last.length) item ++ String.ofList rest)
    | none => (kind, item)
  let parts := splitAlias [] [] (item.length + 1) item.toList
  let name := Text.trimBackslashes (Text.strip (parts.headD ""))
  if name == "" then none
  else
    match parts with
    | _ :: knownAs :: _ => some ⟨kind, name, Text.strip knownAs⟩
    | _ => some ⟨kind, name, Text.lastPart '\\' name⟩

/-- The imports of a `use` clause. -/
def ofClause (clause : String) : List Import :=
  let clause := Text.strip (Text.trimRight (· == ';') (Text.strip clause))
  let clause :=
    if Text.lower (Text.takeChars 3 clause) == "use" then Text.strip (Text.dropChars 3 clause)
    else clause
  let (kind, clause) :=
    match kind? clause.toList with
    | some (k, rest) => (k, String.ofList rest)
    | none => (.className, clause)
  (items clause).filterMap (ofItem? kind)

end Import

/-- A stretch of a source file with its namespace and imports. -/
structure Region where
  start : Nat
  stop : Nat
  ns : String
  classes : Table String
  functions : Table String
  deriving Inhabited

namespace Region

def empty (start stop : Nat) (ns : String) : Region :=
  ⟨start, stop, ns, [], []⟩

/-- Takes the imports of a `use` declaration. -/
def addImports (r : Region) (decl : Node) : Region :=
  (Import.ofClause decl.text).foldl (fun r i =>
    match i.kind with
    | .function => { r with functions := r.functions.put (Text.lower i.knownAs) i.name }
    | .className => { r with classes := r.classes.put (Text.lower i.knownAs) i.name }
    | .const => r) r

/-- A name inside the region's namespace. -/
def qualify (r : Region) (name : String) : String :=
  if r.ns == "" then name else r.ns ++ "\\" ++ name

end Region

/-- The regions of a source file, in order; the first starts with the file. -/
structure Names where
  regions : List Region
  deriving Inhabited

namespace Names

/-- Continues the regions by a child of the root; the last region, `current`, is still open. -/
def addChild (stop : Nat) (done : List Region) (current : Region) (child : Node) :
    List Region × Region :=
  match child.kind with
  | .namespaceDefinition =>
    let name := Text.trimBackslashes (((child.child? .name).map Node.text).getD "")
    let closed := { current with stop := child.start }
    match child.child? .body with
    | some body =>
      let uses := body.namedChildren.filter fun c => c.kind == .namespaceUseDeclaration
      let region := uses.foldl Region.addImports (.empty child.start child.stop name)
      (done ++ [closed, region], .empty child.stop stop "")
    | none => (done ++ [closed], .empty child.start stop name)
  | .namespaceUseDeclaration => (done, current.addImports child)
  | _ => (done, current)

/-- The regions of a syntax tree. -/
def ofTree (root : Node) : Names :=
  let (done, last) := root.namedChildren.foldl
    (fun s child => addChild root.stop s.1 s.2 child) ([], .empty 0 root.stop "")
  ⟨done ++ [last]⟩

/-- The last region that holds a position, or the first of all. -/
def regionAt (names : Names) (offset : Nat) : Region :=
  match names.regions.reverse.find? fun r => r.start ≤ offset && offset < r.stop with
  | some r => r
  | none => names.regions.headD default

def namespaceAt (names : Names) (offset : Nat) : String :=
  (names.regionAt offset).ns

/-- The part of a name before its first backslash, and the part after it if there is one. -/
def splitFirst (name : String) : String × Option String :=
  match Text.cutAt? "\\" name with
  | some (first, rest) => (first, some rest)
  | none => (name, none)

/-- The full name of a class, without a leading backslash. -/
def resolveClass (names : Names) (name : String) (offset : Nat) : String :=
  let name := Text.strip name
  if Text.startsWith name "\\" then Text.trimLeft (· == '\\') name
  else
    let r := names.regionAt offset
    if Text.startsWith (Text.lower name) "namespace\\" then
      r.qualify (Text.dropChars "namespace\\".length name)
    else
      let (first, rest) := splitFirst name
      match r.classes.find? (Text.lower first), rest with
      | some target, some rest => target ++ "\\" ++ rest
      | some target, none => target
      | none, _ => r.qualify name

/-- The names, in lower case, under which a called function is looked up, in order. -/
def functionCandidates (names : Names) (name : String) (offset : Nat) : List String :=
  let name := Text.strip name
  if Text.startsWith name "\\" then [Text.lower (Text.trimLeft (· == '\\') name)]
  else
    let r := names.regionAt offset
    match splitFirst name with
    | (first, some rest) =>
      if Text.lower first == "namespace" then [Text.lower (r.qualify rest)]
      else match r.classes.find? (Text.lower first) with
        | some target => [Text.lower (target ++ "\\" ++ rest)]
        | none => [Text.lower (r.qualify name)]
    | (_, none) =>
      match r.functions.find? (Text.lower name) with
      | some target => [Text.lower target]
      | none =>
        if r.ns == "" then [Text.lower name]
        else [Text.lower (r.qualify name), Text.lower name]

/-- The name that a call falls back to when no function of the namespace has it. -/
def globalFunction (names : Names) (name : String) (offset : Nat) : String :=
  (names.functionCandidates name offset).getLastD ""

end Names

end PluginAudit.Php
