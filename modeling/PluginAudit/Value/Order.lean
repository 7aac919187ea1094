import PluginAudit.Value

namespace PluginAudit

/-- The place of a number among all numbers: a fraction, or beyond all of them. -/
inductive Extent where
  | low
  | at (numerator : Int) (denominator : Nat)
  | high
  deriving Repr

namespace Extent

def lt : Extent → Extent → Bool
  | .low, .low => false
  | .low, _ => true
  | .at .., .low => false
  | .at a b, .at c d => a * d < c * b
  | .at .., .high => true
  | .high, _ => false

end Extent

/-- A finite double as a fraction. -/
def Binary64.fractionOf (x : Binary64) : Int × Nat :=
  let n : Int := x.mantissa * Nat.pow 2 x.exponent.toNat
  (if x.isNegative then -n else n, Nat.pow 2 (-x.exponent).toNat)

namespace Value

/-- The place of an integer or a double that is a number. -/
def extent? : Value → Option Extent
  | .int n => some (.at n 1)
  | .float x =>
    if x.isNaN then none
    else if !x.isFinite then some (if x.isNegative then .low else .high)
    else let (n, d) := x.fractionOf; some (.at n d)
  | _ => none

/-- Whether the first number is less than the second. -/
def less (v w : Value) : Bool :=
  match v.extent?, w.extent? with
  | some a, some b => a.lt b
  | _, _ => false

/-- Whether the first number is not greater than the second. -/
def atMost (v w : Value) : Bool :=
  match v.extent?, w.extent? with
  | some a, some b => !b.lt a
  | _, _ => false

end Value

end PluginAudit
