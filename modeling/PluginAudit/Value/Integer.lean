import PluginAudit.Fault
import PluginAudit.Text.Blank
import PluginAudit.Text.Word

namespace PluginAudit

namespace Text

/-- Digits of any script, with single underscores between them. -/
def digits (n : Nat) : List Char → Option Nat
  | [] => some n
  | '_' :: c :: rest =>
    match digitValue? c with
    | some d => digits (n * 10 + d) rest
    | none => none
  | c :: rest =>
    match digitValue? c with
    | some d => digits (n * 10 + d) rest
    | none => none

/-- At least one digit. -/
def natural? : List Char → Option Nat
  | [] => none
  | c :: rest =>
    match digitValue? c with
    | some d => digits d rest
    | none => none

/-- An integer with an optional sign and blanks around it. -/
def integer? (s : String) : Option Int :=
  match (strip s).toList with
  | '-' :: rest => (natural? rest).map fun n => -(n : Int)
  | '+' :: rest => (natural? rest).map Int.ofNat
  | cs => (natural? cs).map Int.ofNat

end Text

/-- The integer of a number, toward zero, of a boolean, or of a text. -/
def Value.toInteger : Value → Except Fault Int
  | .bool b => .ok (if b then 1 else 0)
  | .int n => .ok n
  | .float x =>
    if x.isNaN then .error .integerOfNaN
    else if !x.isFinite then .error .integerOfInfinity
    else .ok x.truncate
  | .text s =>
    match Text.integer? s with
    | some n => .ok n
    | none => .error (.badInteger s)
  | _ => .error .notNumber

end PluginAudit
