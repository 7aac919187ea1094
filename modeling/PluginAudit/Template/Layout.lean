import PluginAudit.Value.Shown
import PluginAudit.Text.Word

namespace PluginAudit.Template

inductive Align where
  | left | right | center
  /-- The fill stands between the sign and the digits. -/
  | afterSign
  deriving DecidableEq, Repr

def Align.ofChar? : Char → Option Align
  | '<' => some .left
  | '>' => some .right
  | '^' => some .center
  | '=' => some .afterSign
  | _ => none

/-- What a field asks for after its colon. -/
structure Layout where
  fill : Option Char
  align : Option Align
  sign : Option Char
  noNegativeZero : Bool
  alternate : Bool
  zero : Bool
  width : Nat
  grouping : Option Char
  precision : Option Nat
  type : Option Char
  deriving DecidableEq, Repr

namespace Layout

/-- One of the given characters, if it comes next. -/
def takeOne (allowed : List Char) : List Char → Option Char × List Char
  | c :: rest => if allowed.contains c then (some c, rest) else (none, c :: rest)
  | [] => (none, [])

/-- The digits that come next. -/
def takeNumber (n : Option Nat) : List Char → Option Nat × List Char
  | c :: rest =>
    match Text.digitValue? c with
    | some d => takeNumber (some (n.getD 0 * 10 + d)) rest
    | none => (n, c :: rest)
  | [] => (n, [])

def takeAlign : List Char → (Option Char × Option Align) × List Char
  | [] => ((none, none), [])
  | [c] =>
    match Align.ofChar? c with
    | some a => ((none, some a), [])
    | none => ((none, none), [c])
  | f :: c :: rest =>
    match Align.ofChar? c with
    | some a => ((some f, some a), rest)
    | none =>
      match Align.ofChar? f with
      | some a => ((none, some a), c :: rest)
      | none => ((none, none), f :: c :: rest)

/-- Reads a layout; none if it is ill-formed. -/
def ofChars (cs : List Char) : Option Layout := do
  let ((fill, align), cs) := takeAlign cs
  let (sign, cs) := takeOne ['+', '-', ' '] cs
  let (z, cs) := takeOne ['z'] cs
  let (alternate, cs) := takeOne ['#'] cs
  let (zero, cs) := if fill.isSome then (none, cs) else takeOne ['0'] cs
  let (width, cs) := takeNumber none cs
  let (comma, cs) := takeOne [','] cs
  let (underscore, cs) := takeOne ['_'] cs
  if comma.isSome && underscore.isSome then none
  let (_, again) := takeOne [','] cs
  if underscore.isSome && again.length != cs.length then none
  let (precision, cs) ←
    match cs with
    | '.' :: rest =>
      match takeNumber none rest with
      | (some n, rest) => some (some n, rest)
      | (none, _) => none
    | _ => some (none, cs)
  let type ←
    match cs with
    | [] => some none
    | [c] => some (some c)
    | _ => none
  return {
    fill := fill
    align := align
    sign := sign
    noNegativeZero := z.isSome
    alternate := alternate.isSome
    zero := zero.isSome
    width := width.getD 0
    grouping := comma.orElse fun _ => underscore
    precision := precision
    type := type }

def fillChar (l : Layout) : Char :=
  l.fill.getD (if l.zero then '0' else ' ')

/-- Pads to the width. `front` is the sign of a number. -/
def pad (l : Layout) (unset : Align) (front body : List Char) : String :=
  let missing := l.width - (front.length + body.length)
  let fill := fun n => List.replicate n l.fillChar
  String.ofList <|
    match l.align.getD unset with
    | .left => front ++ body ++ fill missing
    | .right => fill missing ++ front ++ body
    | .center => fill (missing / 2) ++ front ++ body ++ fill (missing - missing / 2)
    | .afterSign => front ++ fill missing ++ body

/-- A text: cut to the precision and padded on its right. -/
def text (l : Layout) (s : String) : Option String :=
  let plain := l.sign.isNone && !l.noNegativeZero && !l.alternate && l.grouping.isNone
  if plain && l.align != some .afterSign && (l.type == none || l.type == some 's') then
    let cs := s.toList
    some (l.pad .left [] ((l.precision.map cs.take).getD cs))
  else none

/-- Digits in groups of `size`, from the right. -/
def grouped (size : Nat) (sep : Char) (ds : List Char) : List Char :=
  (ds.reverse.foldl (fun (acc, n) c =>
    if n == size then (c :: sep :: acc, 1) else (c :: acc, n + 1)) (([] : List Char), 0)).1

def signChars (l : Layout) (negative : Bool) : List Char :=
  if negative then ['-']
  else match l.sign with
    | some '+' => ['+']
    | some ' ' => [' ']
    | _ => []

/-- Grouped digits; zeros that fill the width after the sign are grouped with them. -/
def groupedDigits (l : Layout) (size : Nat) (front ds : List Char) : List Char :=
  match l.grouping with
  | none => ds
  | some sep =>
    let zeros := l.zero && (l.align == none || l.align == some .afterSign)
    if zeros then widen sep (l.width - front.length) l.width ds else grouped size sep ds
where
  widen (sep : Char) (room : Nat) : Nat → List Char → List Char
    | 0, ds => grouped size sep ds
    | fuel + 1, ds =>
      if (grouped size sep ds).length < room then widen sep room fuel ('0' :: ds)
      else grouped size sep ds

/-- An integer in the base of the type. -/
def integer (l : Layout) (n : Int) : Option String :=
  if l.precision.isSome || l.noNegativeZero then none
  else
    let base (b : Nat) (mark : String) (size : Nat) (raise : Bool) : Option String :=
      if b != 10 && l.grouping == some ',' then none
      else
        let ds := Nat.toDigits b n.natAbs
        let ds := if raise then ds.map Char.toUpper else ds
        let front := l.signChars (n < 0) ++ (if l.alternate then mark.toList else [])
        let unset := if l.zero then .afterSign else .right
        some (l.pad unset front (l.groupedDigits size front ds))
    match l.type with
    | none | some 'd' => base 10 "" 3 false
    | some 'n' => if l.grouping.isSome then none else base 10 "" 3 false
    | some 'b' => base 2 "0b" 4 false
    | some 'o' => base 8 "0o" 4 false
    | some 'x' => base 16 "0x" 4 false
    | some 'X' => base 16 "0X" 4 true
    | some 'c' =>
      if l.sign.isSome || l.alternate || l.grouping.isSome || n < 0 || 0x10FFFF < n then none
      else some (l.pad (if l.zero then .afterSign else .right) [] [Char.ofNat n.toNat])
    | _ => none

/-- A double with a fixed number of places, or in its shortest form. -/
def double (l : Layout) (x : Binary64) : Option String :=
  let unset := if l.zero then .afterSign else .right
  let fixed (factor : Nat) (closing : List Char) : Option String :=
    if !x.isFinite then none
    else
      let places := l.precision.getD 6
      let num := x.mantissa * Nat.pow 2 x.exponent.toNat * factor * Nat.pow 10 places
      let den := Nat.pow 2 (-x.exponent).toNat
      let q := num / den
      let r := num % den
      let q := if den < 2 * r || (2 * r == den && q % 2 == 1) then q + 1 else q
      let whole := Nat.toDigits 10 (q / Nat.pow 10 places)
      let rest := Nat.toDigits 10 (q % Nat.pow 10 places)
      let tail := if places == 0 then (if l.alternate then ['.'] else [])
        else '.' :: List.replicate (places - rest.length) '0' ++ rest
      let front := l.signChars (x.isNegative && !(l.noNegativeZero && q == 0))
      some (l.pad unset front (l.groupedDigits 3 front whole ++ tail ++ closing))
  match l.type with
  | some 'f' | some 'F' => fixed 1 []
  | some '%' => fixed 100 ['%']
  | none =>
    if l.precision.isSome || l.grouping.isSome then none
    else
      let body := x.text.toList.filter (· != '-')
      some (l.pad unset (l.signChars x.isNegative) body)
  | _ => none

end Layout

end PluginAudit.Template
