import PluginAudit.Value.Shown

namespace PluginAudit.Json

/-- A code unit by its number. -/
def escapedUnit (n : Nat) : List Char :=
  '\\' :: 'u' :: Text.hexDigits 4 n

/-- Whether a character stands for itself inside a string. -/
def isPlain (c : Char) : Bool :=
  ' ' ≤ c && c ≤ '~' && c != '"' && c != '\\'

/-- A character inside a string, in ASCII only. One beyond the first plane takes two code units. -/
def escapedChar (c : Char) : List Char :=
  if c == '"' || c == '\\' then ['\\', c]
  else if c == '\n' then ['\\', 'n']
  else if c == '\r' then ['\\', 'r']
  else if c == '\t' then ['\\', 't']
  else if c == '\x08' then ['\\', 'b']
  else if c == '\x0c' then ['\\', 'f']
  else if isPlain c then [c]
  else if c.toNat < 0x10000 then escapedUnit c.toNat
  else
    let n := c.toNat - 0x10000
    escapedUnit (0xd800 + n / 0x400) ++ escapedUnit (0xdc00 + n % 0x400)

def quoted (s : String) : String :=
  if s.all isPlain then "\"" ++ s ++ "\""
  else "\"" ++ String.ofList (s.toList.flatMap escapedChar) ++ "\""

/-- A double; the infinities and the non-number have words of their own. -/
def number (x : Binary64) : String :=
  if x.isNaN then "NaN"
  else if !x.isFinite then (if x.isNegative then "-Infinity" else "Infinity")
  else x.text

/-- The key of an entry, which is always written as a string. -/
def key : Value → String
  | .text s => quoted s
  | .null => "\"null\""
  | .bool b => if b then "\"true\"" else "\"false\""
  | v => quoted v.shown

mutual

/-- A value on one line. -/
def compact : Value → String
  | .null => "null"
  | .bool b => if b then "true" else "false"
  | .int n => toString n
  | .float x => number x
  | .text s => quoted s
  | .list items => "[" ++ String.intercalate ", " (compactItems items) ++ "]"
  | .map entries => "\x7b" ++ String.intercalate ", " (compactEntries entries) ++ "\x7d"

def compactItems : List Value → List String
  | [] => []
  | v :: rest => compact v :: compactItems rest

def compactEntries : List (Value × Value) → List String
  | [] => []
  | (k, v) :: rest => (key k ++ ": " ++ compact v) :: compactEntries rest

end

mutual

/-- A value over several lines, each level two blanks further in than `margin`. -/
def pretty (margin : String) : Value → String
  | .list [] => "[]"
  | .list items =>
    let inner := margin ++ "  "
    "[\n" ++ String.intercalate ",\n" (prettyItems inner items) ++ "\n" ++ margin ++ "]"
  | .map [] => "\x7b\x7d"
  | .map entries =>
    let inner := margin ++ "  "
    "\x7b\n" ++ String.intercalate ",\n" (prettyEntries inner entries) ++ "\n" ++ margin ++ "\x7d"
  | v => compact v

def prettyItems (margin : String) : List Value → List String
  | [] => []
  | v :: rest => (margin ++ pretty margin v) :: prettyItems margin rest

def prettyEntries (margin : String) : List (Value × Value) → List String
  | [] => []
  | (k, v) :: rest =>
    (margin ++ key k ++ ": " ++ pretty margin v) :: prettyEntries margin rest

end

end PluginAudit.Json
