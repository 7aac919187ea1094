import PluginAudit.Template.Layout
import PluginAudit.Value.Integer
import PluginAudit.Table

namespace PluginAudit.Template

/-- Why a template cannot be filled: it is ill-formed or asks for something the record lacks, or a
value does not have what is asked of it. -/
inductive Failure where
  | unfilled
  | fault (f : Fault)
  deriving Repr

/-- A field: the name with what follows it, the conversion, and the layout. -/
structure Field where
  name : List Char
  conversion : Option Char
  layout : List Char
  deriving DecidableEq, Repr

/-- The name of a field up to its end, and the character that ends it. Brackets hide everything up
to the closing one. -/
def readName (inBrackets : Bool) (acc : List Char) :
    List Char → Option (List Char × Char × List Char)
  | [] => none
  | c :: rest =>
    if inBrackets then readName (c != ']') (c :: acc) rest
    else if c == '\x7b' then none
    else if c == '\x7d' || c == ':' || c == '!' then some (acc.reverse, c, rest)
    else readName (c == '[') (c :: acc) rest

/-- The layout of a field up to the brace that closes it. -/
def readLayout (depth : Nat) (acc : List Char) : List Char → Option (List Char × List Char)
  | [] => none
  | c :: rest =>
    if c == '\x7b' then readLayout (depth + 1) (c :: acc) rest
    else if c == '\x7d' then
      match depth with
      | 0 => some (acc.reverse, rest)
      | d + 1 => readLayout d (c :: acc) rest
    else readLayout depth (c :: acc) rest

/-- A field after its opening brace, and what follows it. -/
def readField (cs : List Char) : Option (Field × List Char) := do
  let (name, stop, rest) ← readName false [] cs
  if stop == '\x7d' then return (⟨name, none, []⟩, rest)
  else if stop == ':' then
    let (layout, rest) ← readLayout 0 [] rest
    return (⟨name, none, layout⟩, rest)
  else match rest with
    | conversion :: '\x7d' :: rest => return (⟨name, some conversion, []⟩, rest)
    | conversion :: ':' :: rest =>
      let (layout, rest) ← readLayout 0 [] rest
      return (⟨name, some conversion, layout⟩, rest)
    | _ => none

/-- A part of a template. -/
inductive Piece where
  | literal (c : Char)
  | field (f : Field)

/-- The next part of a template. A doubled brace is a plain one. -/
def nextPiece (c : Char) (rest : List Char) : Option (Piece × List Char) :=
  if c == '\x7b' then
    match rest with
    | '\x7b' :: rest => some (.literal c, rest)
    | _ => (readField rest).map fun (f, rest) => (.field f, rest)
  else if c == '\x7d' then
    match rest with
    | '\x7d' :: rest => some (.literal c, rest)
    | _ => none
  else some (.literal c, rest)

/-- The item of a value under an index. -/
def itemAt (v : Value) (i : Nat) : Except Failure Value :=
  match v with
  | .text s => found (s.toList[i]?.map fun c => .text (String.ofList [c]))
  | .list items => found items[i]?
  | .map entries =>
    found ((entries.find? fun e => e.1.same (.int i)).map Prod.snd)
  | _ => .error (.fault .notCollection)
where
  found (v : Option Value) : Except Failure Value :=
    match v with
    | some v => .ok v
    | none => .error .unfilled

/-- The item of a value under a name. -/
def itemNamed (v : Value) (key : String) : Except Failure Value :=
  match v with
  | .map entries =>
    match Value.lookup key entries with
    | some v => .ok v
    | none => .error .unfilled
  | _ => .error (.fault .notCollection)

/-- The number that a name is, if it has digits only. -/
def index? (name : List Char) : Option Nat :=
  match name with
  | [] => none
  | c :: rest =>
    match Layout.takeNumber none (c :: rest) with
    | (n, []) => n
    | _ => none

/-- Follows the dots and brackets after the name of a field, at most `fuel`. -/
def follow (v : Value) : Nat → List Char → Except Failure Value
  | _, [] => .ok v
  | 0, _ => .error .unfilled
  | fuel + 1, c :: rest =>
    if c == '.' then
      let name := rest.takeWhile fun c => c != '.' && c != '['
      if name.isEmpty then .error .unfilled else .error (.fault .notMapping)
    else if c == '[' then
      let name := rest.takeWhile (· != ']')
      let after := rest.drop (name.length + 1)
      if name.isEmpty || rest.length ≤ name.length then .error .unfilled
      else do
        let v ←
          match index? name with
          | some i => itemAt v i
          | none => itemNamed v (String.ofList name)
        follow v fuel after
    else .error .unfilled

/-- The value that a field names. Fields without a name, or with a number, name none. -/
def Field.value (f : Field) (record : Table Value) : Except Failure Value :=
  let first := f.name.takeWhile fun c => c != '.' && c != '['
  let rest := f.name.drop first.length
  if first.isEmpty || (index? first).isSome then .error .unfilled
  else match record.find? (String.ofList first) with
    | some v => follow v rest.length rest
    | none => .error .unfilled

/-- A text with everything but ASCII escaped. -/
def asciiOnly (s : String) : String :=
  String.ofList (s.toList.flatMap fun c =>
    if c.toNat < 128 then [c]
    else if c.toNat < 0x100 then '\\' :: 'x' :: Text.hexDigits 2 c.toNat
    else if c.toNat < 0x10000 then '\\' :: 'u' :: Text.hexDigits 4 c.toNat
    else '\\' :: 'U' :: Text.hexDigits 8 c.toNat)

def convert (v : Value) : Option Char → Except Failure Value
  | none => .ok v
  | some 'r' => .ok (.text v.shown)
  | some 's' => .ok (.text v.asText)
  | some 'a' => .ok (.text (asciiOnly v.shown))
  | some _ => .error .unfilled

/-- A value laid out. Values that are neither text nor number take no layout. -/
def layOut (v : Value) (spec : String) : Except Failure String :=
  if spec == "" then .ok v.asText
  else
    let with_ (f : Layout → Option String) : Except Failure String :=
      match (Layout.ofChars spec.toList).bind f with
      | some s => .ok s
      | none => .error .unfilled
    match v with
    | .text s => with_ (·.text s)
    | .int n => with_ (·.integer n)
    | .bool b => with_ (·.integer (if b then 1 else 0))
    | .float x => with_ (·.double x)
    | _ => .error (.fault .notCollection)

/-- Fills the fields of a template from left to right; layouts may hold fields, `nested` levels
deep. -/
def fillFrom (record : Table Value) : Nat → Nat → List Char → List Char → Except Failure String
  | _, _, [], acc => .ok (String.ofList acc.reverse)
  | 0, _, _ :: _, _ => .error .unfilled
  | fuel + 1, nested, c :: rest, acc =>
    match nextPiece c rest with
    | none => .error .unfilled
    | some (.literal c, rest) => fillFrom record fuel nested rest (c :: acc)
    | some (.field f, rest) => do
      let v ← f.value record
      let v ← convert v f.conversion
      let layout ←
        if f.layout.contains '\x7b' then
          match nested with
          | 0 => .error .unfilled
          | n + 1 => fillFrom record fuel n f.layout []
        else .ok (String.ofList f.layout)
      let shown ← layOut v layout
      fillFrom record fuel nested rest (shown.toList.reverse ++ acc)

/-- The template with its fields filled from the record. -/
def fill (template : String) (record : Table Value) : Except Failure String :=
  let cs := template.toList
  fillFrom record (cs.length + 1) 1 cs []

end PluginAudit.Template
