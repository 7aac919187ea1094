import PluginAudit.Value

namespace PluginAudit

/-- What is wrong at a path. -/
structure Issue where
  path : String
  message : String
  deriving DecidableEq, Repr

/-- A result, or all that is wrong. -/
inductive Checked (α : Type) where
  | valid (a : α)
  | invalid (issues : List Issue)

namespace Checked

variable {α β : Type}

def issues : Checked α → List Issue
  | .valid _ => []
  | .invalid is => is

def map (f : α → β) : Checked α → Checked β
  | .valid a => .valid (f a)
  | .invalid is => .invalid is

/-- Applies a checked function to a checked value; the issues of both are kept. -/
def apply (f : Checked (α → β)) (x : Checked α) : Checked β :=
  match f, x with
  | .valid f, .valid a => .valid (f a)
  | f, x => .invalid (f.issues ++ x.issues)

instance : Applicative Checked where
  pure := .valid
  map := map
  seq f x := apply f (x ())

/-- A further check of a valid result. -/
def andThen (c : Checked α) (f : α → Checked β) : Checked β :=
  match c with
  | .valid a => f a
  | .invalid is => .invalid is

/-- The same result with more issues, if there are any. -/
def withIssues (c : Checked α) (more : List Issue) : Checked α :=
  match c with
  | .valid a => if more.isEmpty then .valid a else .invalid more
  | .invalid is => .invalid (is ++ more)

def fail (path message : String) : Checked α :=
  .invalid [⟨path, message⟩]

/-- Fails with a message if a condition does not hold of a valid result. -/
def ensure (c : Checked α) (path : String) (fault? : α → Option String) : Checked α :=
  c.andThen fun a =>
    match fault? a with
    | some message => fail path message
    | none => .valid a

end Checked

/-- A check of the value at a path. -/
abbrev Check (α : Type) := String → Value → Checked α

namespace Check

variable {α : Type}

def text : Check String := fun path v =>
  match v with
  | .text s => .valid s
  | _ => .fail path "Input should be a valid string"

def nonEmptyText : Check String := fun path v =>
  (text path v).ensure path fun s =>
    if s == "" then some "String should have at least 1 character" else none

def switch : Check Bool := fun path v =>
  match v with
  | .bool b => .valid b
  | _ => .fail path "Input should be a valid boolean"

def integer : Check Int := fun path v =>
  match v with
  | .int n => .valid n
  | _ => .fail path "Input should be a valid integer"

/-- A number of either kind. -/
def number : Check Value := fun path v =>
  match v with
  | .int n => .valid (.int n)
  | .float x => .valid (.float x)
  | _ => .fail path "Input should be a valid number"

/-- The words in quotes, with commas and an `or` between them. -/
def alternatives (words : List String) : String :=
  let quoted := words.map fun w => "'" ++ w ++ "'"
  match quoted.reverse with
  | [] => ""
  | [w] => w
  | last :: front => String.intercalate ", " front.reverse ++ " or " ++ last

/-- One of the given words. -/
def oneOf (words : List String) : Check String := fun path v =>
  let refused := Checked.fail path ("Input should be " ++ alternatives words)
  match v with
  | .text s => if words.contains s then .valid s else refused
  | _ => refused

/-- Checks the items of a list from an index on. -/
def items (c : Check α) (path : String) (index : Nat) : List Value → Checked (List α)
  | [] => .valid []
  | v :: rest => .cons <$> c s!"{path}[{index}]" v <*> items c path (index + 1) rest

def list (c : Check α) : Check (List α) := fun path v =>
  match v with
  | .list vs => items c path 0 vs
  | _ => .fail path "Input should be a valid list"

def nonEmptyList (c : Check α) : Check (List α) := fun path v =>
  (list c path v).ensure path fun xs =>
    if xs.isEmpty then some "List should have at least 1 item after validation, not 0" else none

/-- The value at a path, if there is one. -/
structure Field where
  path : String
  value : Option Value

def required (c : Check α) (f : Field) : Checked α :=
  match f.value with
  | some v => c f.path v
  | none => .fail f.path "Field required"

/-- A field that may be missing or null. -/
def optional (c : Check α) (f : Field) : Checked (Option α) :=
  match f.value with
  | none | some .null => .valid none
  | some v => some <$> c f.path v

/-- A field that stands for `unset` if it is missing. -/
def orElse (c : Check α) (unset : α) (f : Field) : Checked α :=
  match f.value with
  | some v => c f.path v
  | none => .valid unset

/-- The path of an unknown key; one that reads like a bracket or a quote is not shown. -/
def keyPath (path key : String) : String :=
  if key.any fun c => c == '[' || c == '(' || c == '\'' then path else path ++ "." ++ key

/-- Checks the fields of an object, in the order of the result, and then that it has no keys but
those in `known`. -/
def fields (known : List String) (path : String) (entries : List (Value × Value))
    (read : (String → Field) → Checked α) : Checked α :=
  let get := fun key => ⟨path ++ "." ++ key, Value.lookup key entries⟩
  (read get).withIssues <| (entries.map fun e => e.1).filterMap fun k =>
    match k with
    | .text key =>
      if known.contains key then none
      else some ⟨keyPath path key, "Extra inputs are not permitted"⟩
    | _ => none

/-- An object of the given name and fields. -/
def object (name : String) (known : List String) (read : (String → Field) → Checked α) :
    Check α := fun path v =>
  match v with
  | .map entries => fields known path entries read
  | _ => .fail path s!"Input should be a valid dictionary or instance of {name}"

end Check

end PluginAudit
