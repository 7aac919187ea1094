import PluginAudit.Regex.Reader
import PluginAudit.Schema.Dialect
import PluginAudit.Value.Order

namespace PluginAudit

namespace Value

mutual

/-- Whether booleans stand at the same places of two values. -/
def booleansAlike : Value → Value → Bool
  | .bool _, .bool _ => true
  | .bool _, _ | _, .bool _ => false
  | .list xs, .list ys => itemsAlike xs ys
  | .map xs, .map ys => entriesAlike xs ys
  | _, _ => true

def itemsAlike : List Value → List Value → Bool
  | x :: xs, y :: ys => booleansAlike x y && itemsAlike xs ys
  | _, _ => true

def entriesAlike : List (Value × Value) → List (Value × Value) → Bool
  | [], _ => true
  | (k, v) :: rest, ys =>
    (match ys.find? fun e => k.same e.1 with
      | some e => booleansAlike v e.2
      | none => true) && entriesAlike rest ys

end

/-- Equality of JSON values: numbers by their value, booleans apart from numbers. -/
def sameJson (v w : Value) : Bool :=
  v.same w && booleansAlike v w

end Value

namespace Schema

/-- Whether a value has one of the seven types. -/
def hasType (d : Dialect) (v : Value) : String → Bool
  | "null" => match v with | .null => true | _ => false
  | "boolean" => match v with | .bool _ => true | _ => false
  | "integer" =>
    match v with
    | .int _ => true
    | .float x => d != .draft4 && x.isIntegral
    | _ => false
  | "number" => match v with | .int _ | .float _ => true | _ => false
  | "string" => match v with | .text _ => true | _ => false
  | "array" => match v with | .list _ => true | _ => false
  | "object" => match v with | .map _ => true | _ => false
  | _ => false

/-- The number of equal parts is whole, by exact division, or by that of doubles if the part is a
double. -/
def isMultiple (v part : Value) : Bool :=
  match v.extent?, part with
  | some (.at n d), .float p =>
    let quotient := Binary64.ofFloat ((asFloat v) / p.toFloat)
    if quotient.isFinite then quotient.isIntegral
    else
      let (a, b) := p.fractionOf
      a != 0 && (n * b) % (d * a) == 0
  | some (.at n d), .int p => p != 0 && n % (d * p) == 0
  | _, _ => false
where
  asFloat : Value → Float
    | .int n => (Binary64.ofDecimal (n < 0) n.natAbs 0).toFloat
    | .float x => x.toFloat
    | _ => 0

def hasRepeats : List Value → Bool
  | [] => false
  | v :: rest => rest.any v.sameJson || hasRepeats rest

/-- Names with commas between them, and whether they were one or several. -/
def unexpected (vs : List Value) : String :=
  Text.join ", " (vs.map Value.shown) ++ if vs.length == 1 then " was" else " were"

def patternFault (pattern : String) : Regex.Error → Fault
  | .malformed => .badPattern pattern
  | .endlessRepeat => .endlessRepeat
  | .longInteger digits => .longInteger digits

/-- Whether a pattern occurs in a text. -/
def occurs (pattern text : String) : Except Fault Bool :=
  match Regex.parse pattern with
  | .ok r => .ok (r.occursIn text)
  | .error e => .error (patternFault pattern e)

/-- What a limit on a size says about a value that breaks it. -/
def sizeMessages (v : Value) (size : Nat) (keyword : String) (limit : Value) (few many : String) :
    List String :=
  let n : Value := .ofNat size
  if Text.startsWith keyword "min" then
    let what := if limit.same (.int 1) then "should be non-empty" else few
    if n.less limit then [s!"{v.shown} {what}"] else []
  else
    let what := if limit.same (.int 0) then "is expected to be empty" else many
    if limit.less n then [s!"{v.shown} {what}"] else []

/-- What a bound says about a number that breaks it; `strict` excludes the bound itself. -/
def boundMessages (v : Value) (strict : Bool) (keyword : String) (limit : Value) : List String :=
  let (broken, side) :=
    if keyword == "minimum" then (if strict then v.atMost limit else v.less limit, "less than")
    else (if strict then limit.atMost v else limit.less v, "greater than")
  let orEqual := if strict then " or equal to" else ""
  if broken then [s!"{v.shown} is {side}{orEqual} the {keyword} of {limit.shown}"] else []

/-- What a keyword without schemas says about a value that it refuses. `siblings` are all the
keywords of its schema. -/
def messages (d : Dialect) (siblings : List (Value × Value)) (keyword : String) (arg v : Value) :
    Except Fault (List String) :=
  match keyword, v with
  | "type", _ =>
    let names := match arg with | .list xs => xs | x => [x]
    .ok (if names.any fun t => hasType d v t.asText then []
      else [s!"{v.shown} is not of type {Text.join comma (names.map Value.shown)}"])
  | "enum", _ =>
    let members := match arg with | .list xs => xs | _ => []
    .ok (if members.any fun w => w.sameJson v then []
      else [s!"{v.shown} is not one of {arg.shown}"])
  | "const", _ => .ok (if v.sameJson arg then [] else [s!"{arg.shown} was expected"])
  | "minimum", .int _ | "minimum", .float _ | "maximum", .int _ | "maximum", .float _ =>
    let flag := if keyword == "minimum" then "exclusiveMinimum" else "exclusiveMaximum"
    let strict := d == .draft4 && ((Value.lookup flag siblings).any Value.isTruthy)
    .ok (boundMessages v strict keyword arg)
  | "exclusiveMinimum", .int _ | "exclusiveMinimum", .float _ =>
    .ok (boundMessages v true "minimum" arg)
  | "exclusiveMaximum", .int _ | "exclusiveMaximum", .float _ =>
    .ok (boundMessages v true "maximum" arg)
  | "multipleOf", .int _ | "multipleOf", .float _ =>
    .ok (if isMultiple v arg then [] else [s!"{v.shown} is not a multiple of {arg.shown}"])
  | "minLength", .text s | "maxLength", .text s =>
    .ok (sizeMessages v s.length keyword arg "is too short" "is too long")
  | "pattern", .text s => do
    let pattern := arg.asText
    return if ← occurs pattern s then [] else [s!"{v.shown} does not match {arg.shown}"]
  | "minItems", .list xs | "maxItems", .list xs =>
    .ok (sizeMessages v xs.length keyword arg "is too short" "is too long")
  | "uniqueItems", .list xs =>
    .ok (if arg.isTruthy && hasRepeats xs then [s!"{v.shown} has non-unique elements"] else [])
  | "minProperties", .map es | "maxProperties", .map es =>
    .ok (sizeMessages v es.length keyword arg "does not have enough properties"
      "has too many properties")
  | "required", .map es =>
    .ok ((missing es arg).map fun name => s!"{name.shown} is a required property")
  | "dependentRequired", .map es =>
    match arg with
    | .map needs => .ok (needs.flatMap fun e =>
        if (Value.lookup e.1.asText es).isNone then []
        else (missing es e.2).map fun name => s!"{name.shown} is a dependency of {e.1.shown}")
    | _ => .ok []
  | _, _ => .ok []
where
  comma : String := ", "
  missing (entries : List (Value × Value)) (names : Value) : List Value :=
    match names with
    | .list xs => xs.filter fun name => (Value.lookup name.asText entries).isNone
    | _ => []

end Schema

end PluginAudit
