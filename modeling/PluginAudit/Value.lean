import PluginAudit.Decimal.Binary64

namespace PluginAudit

/-- A value of a data file. The entries of a mapping stand in the order of their first writing, and
no two have equal keys. -/
inductive Value where
  | null
  | bool (b : Bool)
  | int (n : Int)
  | float (x : Binary64)
  | text (s : String)
  | list (items : List Value)
  | map (entries : List (Value × Value))
  deriving Inhabited

namespace Value

/-- The number a boolean or a number stands for when values are compared: an exact integer, or a
double that is none. -/
def number? : Value → Option (Int ⊕ Binary64)
  | .bool b => some (.inl (if b then 1 else 0))
  | .int n => some (.inl n)
  | .float x => some (if x.isIntegral then .inl x.truncate else .inr x)
  | _ => none

/-- Equality of numbers, whatever their type. -/
def sameNumber : Int ⊕ Binary64 → Int ⊕ Binary64 → Bool
  | .inl m, .inl n => m == n
  | .inr x, .inr y => x == y && !x.isNaN
  | _, _ => false

mutual

/-- Equality of values: numbers and booleans by their value, mappings whatever their order. -/
def same : Value → Value → Bool
  | .null, .null => true
  | .text s, .text t => s == t
  | .list xs, .list ys => sameItems xs ys
  | .map xs, .map ys => xs.length == ys.length && coveredBy xs ys
  | .bool b, w => sameAsNumber (.inl (if b then 1 else 0)) w
  | .int n, w => sameAsNumber (.inl n) w
  | .float x, w => sameAsNumber (if x.isIntegral then .inl x.truncate else .inr x) w
  | _, _ => false
where
  sameAsNumber (n : Int ⊕ Binary64) (w : Value) : Bool :=
    match w.number? with
    | some m => sameNumber n m
    | none => false

def sameItems : List Value → List Value → Bool
  | [], [] => true
  | x :: xs, y :: ys => same x y && sameItems xs ys
  | _, _ => false

/-- Whether each entry of the first list has an equal one in the second. -/
def coveredBy : List (Value × Value) → List (Value × Value) → Bool
  | [], _ => true
  | (k, v) :: rest, ys =>
    (match ys.find? fun e => same k e.1 with
      | some e => same v e.2
      | none => false) && coveredBy rest ys

end

/-- The entry of a mapping under a text. -/
def lookup (key : String) : List (Value × Value) → Option Value
  | [] => none
  | (.text k, v) :: rest => if k == key then some v else lookup key rest
  | _ :: rest => lookup key rest

/-- The value of a mapping under a text; nothing for other values. -/
def get? (v : Value) (key : String) : Option Value :=
  match v with
  | .map entries => lookup key entries
  | _ => none

/-- Writes an entry: in place if the key is there, otherwise at the end. -/
def insert (entries : List (Value × Value)) (key value : Value) : List (Value × Value) :=
  if entries.any fun e => e.1.same key then
    entries.map fun e => if e.1.same key then (e.1, value) else e
  else entries ++ [(key, value)]

/-- The mapping of the given entries, a later one of equal key taking the place of an earlier. -/
def ofEntries (entries : List (Value × Value)) : Value :=
  .map (entries.foldl (fun es e => insert es e.1 e.2) [])

/-- A mapping with texts as keys. -/
def object (entries : List (String × Value)) : Value :=
  .map (entries.map fun e => (.text e.1, e.2))

def texts (items : List String) : Value :=
  .list (items.map .text)

def ofNat (n : Nat) : Value := .int n

/-- A text, or null. -/
def ofText? (s : Option String) : Value :=
  match s with
  | some s => .text s
  | none => .null

/-- Null, false, zero and whatever is empty count as nothing. -/
def isTruthy : Value → Bool
  | .null => false
  | .bool b => b
  | .int n => n != 0
  | .float x => !x.isZero
  | .text s => s != ""
  | .list items => !items.isEmpty
  | .map entries => !entries.isEmpty

end Value

end PluginAudit
