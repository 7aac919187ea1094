import PluginAudit.Fault
import PluginAudit.Text.Parts

namespace PluginAudit.Yaml

/-- Why a text is no YAML, or a scalar in it has no value. -/
inductive Error where
  | malformed
  | badInteger (text : String) (base : Nat)
  | longInteger (digits : Nat)
  /-- A text that its tag calls a double. -/
  | badDouble (text : String)
  /-- A text that its tag calls a boolean. -/
  | badBoolean (text : String)

def Error.fault : Error → Fault
  | .malformed => .yaml
  | .badInteger text base => .badInteger text base
  | .longInteger digits => .longInteger digits
  | .badDouble text =>
    .raised "ValueError" s!"could not convert string to float: {Text.quoted text}"
  | .badBoolean text => .raised "KeyError" (Text.quoted text)

def isDigitOrMark (c : Char) : Bool :=
  c.isDigit || c == '_'

/-- The digits of a number without the underscores. -/
def bare (cs : List Char) : List Char :=
  cs.filter (· != '_')

/-- The number of digits in a base. -/
def digitsIn (base : Nat) (cs : List Char) : Nat :=
  cs.foldl (fun n c =>
    let d :=
      if c.isDigit then c.toNat - 48
      else if 'a' ≤ c ∧ c ≤ 'f' then c.toNat - 87
      else c.toNat - 55
    n * base + d) 0

def isHexOrMark (c : Char) : Bool :=
  isDigitOrMark c || ('a' ≤ c && c ≤ 'f') || ('A' ≤ c && c ≤ 'F')

def isOctalOrMark (c : Char) : Bool :=
  ('0' ≤ c && c ≤ '7') || c == '_'

def isBinaryOrMark (c : Char) : Bool :=
  c == '0' || c == '1' || c == '_'

/-- Parts of base sixty after the first: one digit, or two of which the first is at most five. -/
def isSixtieth (cs : List Char) : Bool :=
  match cs with
  | [c] => c.isDigit
  | [c, d] => '0' ≤ c && c ≤ '5' && d.isDigit
  | _ => false

/-- The value of digits in groups of base sixty. -/
def sixtieths (parts : List (List Char)) : Nat :=
  parts.foldl (fun n p => n * 60 + digitsIn 10 p) 0

/-- Splits off the sign. -/
def sign (cs : List Char) : Bool × List Char :=
  match cs with
  | '-' :: rest => (true, rest)
  | '+' :: rest => (false, rest)
  | _ => (false, cs)

/-- The number of digits of which none is left out but underscores. -/
def numberIn (base : Nat) (cs : List Char) : Except Error Nat :=
  let ds := bare cs
  if ds.isEmpty then .error (.badInteger "" base)
  else if base == 10 && maxDigits < ds.length then .error (.longInteger ds.length)
  else .ok (digitsIn base ds)

def natural? (cs : List Char) : Option (Except Error Nat) :=
  match cs with
  | '0' :: 'b' :: c :: rest =>
    if (c :: rest).all isBinaryOrMark then some (numberIn 2 (c :: rest)) else none
  | '0' :: 'x' :: c :: rest =>
    if (c :: rest).all isHexOrMark then some (numberIn 16 (c :: rest)) else none
  | '0' :: rest => if rest.all isOctalOrMark then some (numberIn 8 ('0' :: rest)) else none
  | c :: rest =>
    if !c.isDigit then none
    else if rest.all isDigitOrMark then some (numberIn 10 (c :: rest))
    else
      match (Text.splitBy (· == ':') (String.ofList (c :: rest))).map String.toList with
      | first :: p :: ps =>
        if first.all isDigitOrMark && (p :: ps).all isSixtieth then
          some ((numberIn 10 first).map fun _ => sixtieths (bare first :: p :: ps))
        else none
      | _ => none
  | [] => none

def integer? (cs : List Char) : Option (Except Error Int) :=
  let (negative, body) := sign cs
  (natural? body).map fun r => r.map fun n => if negative then -(n : Int) else n

/-- The exponent of a double, which must have a sign. -/
def exponent? (cs : List Char) : Option Int :=
  match cs with
  | [] => some 0
  | e :: s :: d :: rest =>
    if (e == 'e' || e == 'E') && (s == '-' || s == '+') && (d :: rest).all Char.isDigit then
      let n : Int := digitsIn 10 (d :: rest)
      some (if s == '-' then -n else n)
    else none
  | _ => none

/-- A double in groups of base sixty, the last of which has a fraction. -/
def sixtiethsDouble? (negative : Bool) (body : List Char) : Option Binary64 :=
  let whole := body.takeWhile (· != '.')
  match body.drop whole.length, (Text.splitBy (· == ':') (String.ofList whole)).map String.toList with
  | '.' :: frac, first :: p :: ps =>
    if first.head?.any Char.isDigit && first.all isDigitOrMark && (p :: ps).all isSixtieth &&
        frac.all isDigitOrMark then
      let fs := bare frac
      let last := .ofDecimal false (digitsIn 10 ((p :: ps).getLastD [] ++ fs)) (-fs.length)
      let others := (bare first :: (p :: ps).dropLast).reverse.map fun ds =>
        Binary64.ofDecimal false (digitsIn 10 ds) 0
      some (.weighted negative 60 (last :: others))
    else none
  | _, _ => none

def float? (cs : List Char) : Option Binary64 :=
  let (negative, body) := sign cs
  let signed := body.length != cs.length
  let whole := body.takeWhile isDigitOrMark
  match body.drop whole.length with
  | '.' :: rest =>
    let word := String.ofList rest
    if whole.isEmpty && (word == "inf" || word == "Inf" || word == "INF") then
      some (.infinity negative)
    else if whole.isEmpty && !signed && (word == "nan" || word == "NaN" || word == "NAN") then
      some .nan
    else
      let frac := rest.takeWhile isDigitOrMark
      let startsRight :=
        match whole with
        | [] => !signed && frac.head?.any Char.isDigit
        | c :: _ => c.isDigit
      match exponent? (rest.drop frac.length) with
      | some e =>
        if startsRight then
          let fs := bare frac
          some (.ofDecimal negative (digitsIn 10 (bare whole ++ fs)) (e - fs.length))
        else none
      | none => none
  | _ => sixtiethsDouble? negative body

/-- The spellings of null and of the booleans. -/
def words : List (String × Value) :=
  [("", .null), ("~", .null), ("null", .null), ("Null", .null), ("NULL", .null),
    ("yes", .bool true), ("Yes", .bool true), ("YES", .bool true),
    ("no", .bool false), ("No", .bool false), ("NO", .bool false),
    ("true", .bool true), ("True", .bool true), ("TRUE", .bool true),
    ("false", .bool false), ("False", .bool false), ("FALSE", .bool false),
    ("on", .bool true), ("On", .bool true), ("ON", .bool true),
    ("off", .bool false), ("Off", .bool false), ("OFF", .bool false)]

/-- The value of a plain scalar. Dates stay texts. -/
def plainValue (s : String) : Except Error Value :=
  match words.find? (·.1 == s) with
  | some (_, v) => .ok v
  | none =>
    match integer? s.toList with
    | some r => r.map .int
    | none =>
      match float? s.toList with
      | some x => .ok (.float x)
      | none => .ok (.text s)

end PluginAudit.Yaml
