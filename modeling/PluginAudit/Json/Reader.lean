import PluginAudit.Fault

namespace PluginAudit.Json

/-- Why a text is no JSON. -/
inductive Fault where
  | byteOrderMark
  | expectedValue
  | expectedKey
  | expectedColon
  | expectedComma
  | extraData
  | unterminatedString
  | controlCharacter
  | invalidEscape
  | invalidUnicodeEscape
  /-- An integer with more digits than are read. -/
  | longInteger (digits : Nat)
  deriving DecidableEq, Repr

def Fault.message : Fault → String
  | .byteOrderMark => "Unexpected UTF-8 BOM (decode using utf-8-sig)"
  | .expectedValue => "Expecting value"
  | .expectedKey => "Expecting property name enclosed in double quotes"
  | .expectedColon => "Expecting ':' delimiter"
  | .expectedComma => "Expecting ',' delimiter"
  | .extraData => "Extra data"
  | .unterminatedString => "Unterminated string starting at"
  | .controlCharacter => "Invalid control character at"
  | .invalidEscape => "Invalid \\escape"
  | .invalidUnicodeEscape => "Invalid \\uXXXX escape"
  | .longInteger digits => longIntegerMessage digits

/-- A fault and the number of characters before it. -/
structure Error where
  fault : Fault
  position : Nat
  deriving DecidableEq, Repr

/-- The message of a fault in `source`, with its line, column and position. That of a long integer
has none. -/
def Error.message (source : String) (e : Error) : String :=
  match e.fault with
  | .longInteger _ => e.fault.message
  | f =>
    let before := source.toList.take e.position
    let line := before.count '\n' + 1
    let column := (before.reverse.takeWhile (· != '\n')).length + 1
    s!"{f.message}: line {line} column {column} (char {e.position})"

/-- The characters still to be read and the number of those before them. -/
structure Cursor where
  rest : List Char
  position : Nat

def Cursor.fail {α : Type} (at_ : Cursor) (f : Fault) : Except Error (α × Cursor) :=
  .error ⟨f, at_.position⟩

def Cursor.skip (c : Cursor) (n : Nat) : Cursor :=
  ⟨c.rest.drop n, c.position + n⟩

def isSpace (c : Char) : Bool :=
  c == ' ' || c == '\t' || c == '\n' || c == '\r'

def Cursor.skipSpace (c : Cursor) : Cursor :=
  c.skip (c.rest.takeWhile isSpace).length

def hexValue? (c : Char) : Option Nat :=
  if c.isDigit then some (c.toNat - 48)
  else if 'a' ≤ c ∧ c ≤ 'f' then some (c.toNat - 87)
  else if 'A' ≤ c ∧ c ≤ 'F' then some (c.toNat - 55)
  else none

/-- Four hexadecimal digits, which must not end the text. -/
def hex4? : List Char → Option (Nat × List Char)
  | a :: b :: c :: d :: e :: rest => do
    let ds ← [a, b, c, d].mapM hexValue?
    return (ds.foldl (fun n x => n * 16 + x) 0, e :: rest)
  | _ => none

def simpleEscape? : Char → Option Char
  | '"' => some '"'
  | '\\' => some '\\'
  | '/' => some '/'
  | 'b' => some '\x08'
  | 'f' => some '\x0c'
  | 'n' => some '\n'
  | 'r' => some '\r'
  | 't' => some '\t'
  | _ => none

/-- Reads the inside of a string, whose opening quote stands at `start`, up to its closing quote. -/
def readString (start : Nat) (acc : List Char) (pos : Nat) :
    Nat → List Char → Except Error (String × Cursor)
  | _, [] => .error ⟨.unterminatedString, start⟩
  | 0, _ => .error ⟨.unterminatedString, start⟩
  | _ + 1, '"' :: rest => .ok (String.ofList acc.reverse, ⟨rest, pos + 1⟩)
  | _ + 1, ['\\'] => .error ⟨.unterminatedString, start⟩
  | fuel + 1, '\\' :: 'u' :: rest =>
    match hex4? rest with
    | none => .error ⟨.invalidUnicodeEscape, pos + 1⟩
    | some (hi, after) =>
      let single := readString start (Char.ofNat hi :: acc) (pos + 6) fuel after
      match after with
      | '\\' :: 'u' :: more =>
        match hex4? more with
        | some (lo, after2) =>
          if 0xD800 ≤ hi ∧ hi < 0xDC00 ∧ 0xDC00 ≤ lo ∧ lo < 0xE000 then
            let c := Char.ofNat (0x10000 + (hi - 0xD800) * 0x400 + (lo - 0xDC00))
            readString start (c :: acc) (pos + 12) fuel after2
          else single
        | none => single
      | _ => single
  | fuel + 1, '\\' :: c :: rest =>
    match simpleEscape? c with
    | some e => readString start (e :: acc) (pos + 2) fuel rest
    | none => .error ⟨.invalidEscape, pos⟩
  | fuel + 1, c :: rest =>
    if c.toNat < 32 then .error ⟨.controlCharacter, pos⟩
    else readString start (c :: acc) (pos + 1) fuel rest

/-- Reads a string after its opening quote. -/
def Cursor.string (c : Cursor) : Except Error (String × Cursor) :=
  readString (c.position - 1) [] c.position (c.rest.length + 1) c.rest

def digitsOf (cs : List Char) : List Char :=
  cs.takeWhile Char.isDigit

def natOf (ds : List Char) : Nat :=
  ds.foldl (fun n c => n * 10 + (c.toNat - 48)) 0

/-- Reads a number: an integer, or a double if it has a fraction or an exponent. -/
def readNumber? (cs : List Char) : Option (Value × Nat) :=
  let negative := cs.head? == some '-'
  let body := if negative then cs.drop 1 else cs
  let whole := if body.head? == some '0' then ['0'] else digitsOf body
  if whole.isEmpty then none
  else
    let rest := body.drop whole.length
    let frac :=
      match rest with
      | '.' :: more => digitsOf more
      | _ => []
    let rest := if frac.isEmpty then rest else rest.drop (frac.length + 1)
    let signed : List Char :=
      match rest with
      | 'e' :: more | 'E' :: more =>
        match more with
        | '-' :: ds => if (digitsOf ds).isEmpty then [] else '-' :: digitsOf ds
        | '+' :: ds => if (digitsOf ds).isEmpty then [] else '+' :: digitsOf ds
        | ds => digitsOf ds
      | _ => []
    let size := (if negative then 1 else 0) + whole.length +
      (if frac.isEmpty then 0 else frac.length + 1) +
      (if signed.isEmpty then 0 else signed.length + 1)
    if frac.isEmpty && signed.isEmpty then
      let n : Int := natOf whole
      some (.int (if negative then -n else n), size)
    else
      let exp : Int :=
        match signed with
        | '-' :: ds => -(natOf ds : Int)
        | '+' :: ds => natOf ds
        | ds => natOf ds
      some (.float (.ofDecimal negative (natOf (whole ++ frac)) (exp - frac.length)), size)

/-- The words that stand for values. -/
def literals : List (String × Value) :=
  [("null", .null), ("true", .bool true), ("false", .bool false), ("NaN", .float .nan),
    ("Infinity", .float (.infinity false)), ("-Infinity", .float (.infinity true))]

/-- Reads a word or a number. -/
def Cursor.scalar (c : Cursor) : Except Error (Value × Cursor) :=
  match literals.find? fun l => l.1.toList.isPrefixOf c.rest with
  | some (word, v) => .ok (v, c.skip word.length)
  | none =>
    match readNumber? c.rest with
    | some (.int n, size) =>
      let digits := (c.rest.take size).countP Char.isDigit
      if digits ≤ maxDigits then .ok (.int n, c.skip size) else c.fail (.longInteger digits)
    | some (v, size) => .ok (v, c.skip size)
    | none => c.fail .expectedValue

mutual

/-- Reads one value; every nested one costs a unit of fuel. -/
def readValue : Nat → Cursor → Except Error (Value × Cursor)
  | 0, c => c.fail .expectedValue
  | fuel + 1, c =>
    match c.rest with
    | '"' :: _ => do
      let (s, c) ← (c.skip 1).string
      return (.text s, c)
    | '\x7b' :: _ =>
      let c := (c.skip 1).skipSpace
      match c.rest with
      | '\x7d' :: _ => .ok (.map [], c.skip 1)
      | _ => readEntries fuel [] c
    | '[' :: _ =>
      let c := (c.skip 1).skipSpace
      match c.rest with
      | ']' :: _ => .ok (.list [], c.skip 1)
      | _ => readItems fuel [] c
    | _ => c.scalar

/-- Reads the entries of an object from a key on. -/
def readEntries : Nat → List (Value × Value) → Cursor → Except Error (Value × Cursor)
  | 0, _, c => c.fail .expectedKey
  | fuel + 1, acc, c =>
    match c.rest with
    | '"' :: _ => do
      let (key, c) ← (c.skip 1).string
      let c := c.skipSpace
      match c.rest with
      | ':' :: _ =>
        let (v, c) ← readValue fuel (c.skip 1).skipSpace
        let c := c.skipSpace
        let acc := (.text key, v) :: acc
        match c.rest with
        | '\x7d' :: _ => return (.ofEntries acc.reverse, c.skip 1)
        | ',' :: _ => readEntries fuel acc (c.skip 1).skipSpace
        | _ => c.fail .expectedComma
      | _ => c.fail .expectedColon
    | _ => c.fail .expectedKey

/-- Reads the items of an array from an item on. -/
def readItems : Nat → List Value → Cursor → Except Error (Value × Cursor)
  | 0, _, c => c.fail .expectedValue
  | fuel + 1, acc, c => do
    let (v, c) ← readValue fuel c
    let c := c.skipSpace
    let acc := v :: acc
    match c.rest with
    | ']' :: _ => return (.list acc.reverse, c.skip 1)
    | ',' :: _ => readItems fuel acc (c.skip 1).skipSpace
    | _ => c.fail .expectedComma

end

/-- The value of a JSON text. -/
def parse (source : String) : Except Error Value := do
  let cs := source.toList
  if cs.head? == some '\uFEFF' then .error ⟨.byteOrderMark, 0⟩
  else
    let (v, c) ← readValue (cs.length + 1) (Cursor.skipSpace ⟨cs, 0⟩)
    let c := c.skipSpace
    if c.rest.isEmpty then .ok v else .error ⟨.extraData, c.position⟩

end PluginAudit.Json
