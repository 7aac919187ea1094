namespace PluginAudit

/-- A double-precision number, given by its 64 bits. -/
structure Binary64 where
  bits : UInt64
  deriving DecidableEq, Repr, Inhabited

namespace Binary64

def ofFloat (x : Float) : Binary64 := ⟨x.toBits⟩

def toFloat (x : Binary64) : Float := Float.ofBits x.bits

def isNegative (x : Binary64) : Bool :=
  x.bits >>> 63 == 1

def exponentField (x : Binary64) : Nat :=
  ((x.bits >>> 52) &&& 0x7FF).toNat

def fraction (x : Binary64) : Nat :=
  (x.bits &&& 0xFFFFFFFFFFFFF).toNat

def isFinite (x : Binary64) : Bool :=
  x.exponentField < 0x7FF

def isNaN (x : Binary64) : Bool :=
  x.exponentField == 0x7FF && x.fraction != 0

def isZero (x : Binary64) : Bool :=
  x.exponentField == 0 && x.fraction == 0

/-- The absolute value of a finite number is `mantissa * 2 ^ exponent`. -/
def mantissa (x : Binary64) : Nat :=
  if x.exponentField = 0 then x.fraction else x.fraction + Nat.pow 2 52

def exponent (x : Binary64) : Int :=
  if x.exponentField = 0 then -1074 else (x.exponentField : Int) - 1075

/-- The integer part of a finite number, toward zero. -/
def truncate (x : Binary64) : Int :=
  let n : Nat :=
    if 0 ≤ x.exponent then x.mantissa * Nat.pow 2 x.exponent.toNat
    else x.mantissa / Nat.pow 2 (-x.exponent).toNat
  if x.isNegative then -(n : Int) else n

/-- Whether a number is finite and has no fractional part. -/
def isIntegral (x : Binary64) : Bool :=
  x.isFinite &&
    (0 ≤ x.exponent || x.mantissa % Nat.pow 2 (-x.exponent).toNat == 0)

/-- The number `±digits · 10 ^ exp`, rounded to the nearest double. -/
def ofDecimal (negative : Bool) (digits : Nat) (exp : Int) : Binary64 :=
  let size := (toString digits).length
  let x : Float :=
    if digits = 0 ∨ (size : Int) + exp < -400 then 0
    else if 400 < (size : Int) + exp then 1.0 / 0.0
    else if exp < 0 then Float.ofScientific digits true (-exp).toNat
    else Float.ofScientific digits false exp.toNat
  ofFloat (if negative then -x else x)

/-- The sum of digits, the last one first, by their weights in a base, each step rounded. -/
def weighted (negative : Bool) (base : Nat) (digits : List Binary64) : Binary64 :=
  let step := fun (sum : Float × Nat) (d : Binary64) =>
    (sum.1 + d.toFloat * Float.ofNat sum.2, sum.2 * base)
  let sum := (digits.foldl step (0, 1)).1
  ofFloat (if negative then -sum else sum)

def infinity (negative : Bool) : Binary64 :=
  ⟨if negative then 0xFFF0000000000000 else 0x7FF0000000000000⟩

def nan : Binary64 := ⟨0x7FF8000000000000⟩

/-- The interval of reals that round to a number, over a common denominator. -/
structure Interval where
  low : Nat
  value : Nat
  high : Nat
  denominator : Nat
  closed : Bool

def interval (x : Binary64) : Interval :=
  let up := Nat.pow 2 x.exponent.toNat
  let below := if x.fraction = 0 ∧ 1 < x.exponentField then 1 else 2
  { low := (4 * x.mantissa - below) * up
    value := 4 * x.mantissa * up
    high := (4 * x.mantissa + 2) * up
    denominator := 4 * Nat.pow 2 (-x.exponent).toNat
    closed := x.mantissa % 2 == 0 }

/-- Whether `d · 10 ^ k` lies in the interval. -/
def Interval.holds (i : Interval) (d : Nat) (k : Int) : Bool :=
  let n := d * Nat.pow 10 k.toNat * i.denominator
  let scale := Nat.pow 10 (-k).toNat
  if i.closed then i.low * scale ≤ n && n ≤ i.high * scale
  else i.low * scale < n && n < i.high * scale

/-- The multiples of `10 ^ k` next to the value. -/
def Interval.floor (i : Interval) (k : Int) : Nat :=
  (i.value * Nat.pow 10 (-k).toNat) / (i.denominator * Nat.pow 10 k.toNat)

/-- Whether the value is nearer to the multiple `d + 1` of `10 ^ k` than to `d`; ties to even. -/
def Interval.roundsUp (i : Interval) (d : Nat) (k : Int) : Bool :=
  let twice := 2 * i.value * Nat.pow 10 (-k).toNat
  let middle := (2 * d + 1) * (i.denominator * Nat.pow 10 k.toNat)
  middle < twice || (middle == twice && d % 2 == 1)

/-- The least `k` with the value below `10 ^ k`, searched downwards from `k`. -/
def Interval.magnitude (i : Interval) : Nat → Int → Int
  | 0, k => k
  | fuel + 1, k =>
    if i.value * Nat.pow 10 (1 - k).toNat < i.denominator * Nat.pow 10 (k - 1).toNat
    then i.magnitude fuel (k - 1) else k

/-- The first count of digits from `n` on for which a neighbour of the value rounds back to it. -/
def Interval.digits (i : Interval) (magnitude : Int) : Nat → Nat → Nat × Int
  | 0, n => (i.floor (magnitude - n), magnitude - n)
  | fuel + 1, n =>
    let k := magnitude - n
    let d := i.floor k
    let below := d != 0 && i.holds d k
    let above := i.holds (d + 1) k
    if below && above then (if i.roundsUp d k then d + 1 else d, k)
    else if below then (d, k)
    else if above then (d + 1, k)
    else i.digits magnitude fuel (n + 1)

/-- The fewest digits `d` and the power `k` such that `d · 10 ^ k` reads back as the finite,
non-zero number. -/
def shortest (x : Binary64) : Nat × Int :=
  let i := x.interval
  i.digits (i.magnitude 640 310) 17 1

/-- The digits of a decimal with an exponent of at least two digits. -/
def exponentText (e : Int) : String :=
  let n := toString e.natAbs
  (if e < 0 then "-" else "+") ++ (if n.length < 2 then "0" ++ n else n)

/-- A decimal point is always written; an exponent from `10 ^ 16` on and below `10 ^ -4`. -/
def text (x : Binary64) : String :=
  if x.isNaN then "nan"
  else
    let sign := if x.isNegative then "-" else ""
    if !x.isFinite then sign ++ "inf"
    else if x.isZero then sign ++ "0.0"
    else
      let (d, k) := x.shortest
      let all := (toString d).toList
      let ds := dropZeros all
      let point : Int := all.length + k
      sign ++
        if -4 < point ∧ point ≤ 16 then
          if point ≤ 0 then "0." ++ String.ofList (List.replicate (-point).toNat '0' ++ ds)
          else if ds.length ≤ point.toNat then
            String.ofList (ds ++ List.replicate (point.toNat - ds.length) '0') ++ ".0"
          else String.ofList (ds.take point.toNat ++ '.' :: ds.drop point.toNat)
        else
          let body :=
            match ds with
            | [] => []
            | [c] => [c]
            | c :: rest => c :: '.' :: rest
          String.ofList body ++ "e" ++ exponentText (point - 1)
where
  dropZeros (ds : List Char) : List Char :=
    (ds.reverse.dropWhile (· == '0')).reverse

end Binary64

end PluginAudit
