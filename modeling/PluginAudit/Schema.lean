import PluginAudit.Schema.Assertion
import PluginAudit.Schema.Reference

namespace PluginAudit.Schema

/-- One reason to refuse a value: where, by which keyword, and with which argument. A schema that
refuses everything has no keyword. -/
structure Mismatch where
  path : List String
  message : String
  keyword : Option String
  args : Value

/-- The mismatches that are found one after the other, up to a fault. -/
structure Findings where
  mismatches : List Mismatch := []
  fault : Option Fault := none

namespace Findings

/-- The second findings are looked for only if the first end without a fault. -/
def append (f : Findings) (g : Unit → Findings) : Findings :=
  match f.fault with
  | some _ => f
  | none =>
    let rest := g ()
    { rest with mismatches := f.mismatches ++ rest.mismatches }

/-- The findings of all items, one after the other. -/
def each {α : Type} (xs : List α) (find : α → Findings) : Findings :=
  match xs with
  | [] => {}
  | x :: rest => (find x).append fun _ => each rest find

/-- Nothing to object: decided by the first mismatch, so that a fault behind it does not count. -/
def isValid (f : Findings) : Except Fault Bool :=
  match f.mismatches, f.fault with
  | _ :: _, _ => .ok false
  | [], some fault => .error fault
  | [], none => .ok true

/-- Findings that depend on a computation. -/
def ofExcept (r : Except Fault Findings) : Findings :=
  match r with
  | .ok f => f
  | .error fault => { fault := some fault }

end Findings

/-- How a schema is read: by which dialect, inside of which document, and whether formats are
checked. -/
structure Context where
  dialect : Dialect
  document : Value
  checksFormats : Bool := false

/-- What a schema says about a value. -/
abbrev Judge := Context → Value → Value → Findings

def refusal (v : Value) : Mismatch :=
  ⟨[], s!"False schema does not allow {v.shown}", none, .null⟩

/-- The findings about a part of a value. A schema that refuses everything does not tell the
part. -/
def Judge.part (judge : Judge) (c : Context) (schema : Value) (name : String) (v : Value) :
    Findings :=
  match schema with
  | .bool _ => judge c schema v
  | _ =>
    let f := judge c schema v
    { f with mismatches := f.mismatches.map fun m => { m with path := name :: m.path } }

def entriesOf : Value → List (String × Value)
  | .map es => es.map fun e => (e.1.asText, e.2)
  | _ => []

def itemsOf : Value → List Value
  | .list xs => xs
  | _ => []

/-- Items with their positions from `start` on. -/
def numbered (start : Nat) (xs : List Value) : List (String × Value) :=
  (xs.zipIdx start).map fun e => (toString e.2, e.1)

/-- The names of an object that neither `properties` nor `patternProperties` cover. -/
def additionalNames (siblings : List (Value × Value)) (v : Value) :
    Except Fault (List (String × Value)) :=
  let known := entriesOf ((Value.lookup "properties" siblings).getD .null)
  let patterns := (entriesOf ((Value.lookup "patternProperties" siblings).getD .null)).map Prod.fst
  let joined := Text.join "|" patterns
  (entriesOf v).filterM fun e => do
    if known.any fun k => k.1 == e.1 then return false
    else if joined == "" then return true
    else return !(← occurs joined e.1)

def sortedTexts (names : List String) : List Value :=
  (names.mergeSort fun a b => decide (a ≤ b)).map .text

/-- What is said about names that are not allowed. -/
def additionalMessage (siblings : List (Value × Value)) (names : List String) : String :=
  let extras := sortedTexts names
  match Value.lookup "patternProperties" siblings with
  | some patterns =>
    let verb := if names.length == 1 then "does" else "do"
    let shown := (sortedTexts ((entriesOf patterns).map Prod.fst)).map Value.shown
    let all := extras.map Value.shown
    s!"{Text.join comma all} {verb} not match any of the regexes: {Text.join comma shown}"
  | none => s!"Additional properties are not allowed ({unexpected extras} unexpected)"
where
  comma : String := ", "

/-- The items that a list of schemas does not cover, for dialects where `items` can be a list. -/
def additionalItems (siblings : List (Value × Value)) (xs : List Value) :
    Except Fault (Option (List (String × Value))) :=
  match Value.lookup "items" siblings with
  | none | some (.map _) => .ok none
  | some (.list schemas) => .ok (some (numbered schemas.length (xs.drop schemas.length)))
  | some _ => .error .notCollection

/-- The schemas of a list that accept a value. -/
def accepting (judge : Judge) (c : Context) (schemas : List Value) (v : Value) :
    Except Fault (List Value) :=
  schemas.filterM fun s => (judge c s v).isValid

/-- The first schema that accepts a value, and the schemas behind it. All that is to be found by a
schema is looked for. -/
def firstAccepting (judge : Judge) (c : Context) (v : Value) :
    List Value → Except Fault (Option (Value × List Value))
  | [] => .ok none
  | s :: rest =>
    let f := judge c s v
    match f.fault with
    | some fault => .error fault
    | none =>
      if f.mismatches.isEmpty then .ok (some (s, rest)) else firstAccepting judge c v rest

/-- What a keyword with schemas of its own finds. `siblings` are all the keywords of its schema. -/
def applied (judge : Judge) (c : Context) (siblings : List (Value × Value)) (keyword : String)
    (arg v : Value) : Findings :=
  let say (message : String) : Findings := { mismatches := [⟨[], message, keyword, arg⟩] }
  let here (schema : Value) : Findings := judge c schema v
  let parts (schema : Value) (es : List (String × Value)) : Findings :=
    .each es fun e => judge.part c schema e.1 e.2
  match keyword, v with
  | "$ref", _ => .ofExcept do
    let (document, schema) ← resolve c.document arg.asText
    return judge { c with document } schema v
  | "allOf", _ => .each (itemsOf arg) here
  | "anyOf", _ => .ofExcept do
    match ← firstAccepting judge c v (itemsOf arg) with
    | some _ => return {}
    | none => return say s!"{v.shown} is not valid under any of the given schemas"
  | "oneOf", _ => .ofExcept do
    match ← firstAccepting judge c v (itemsOf arg) with
    | none => return say s!"{v.shown} is not valid under any of the given schemas"
    | some (first, rest) =>
      match ← accepting judge c rest v with
      | [] => return {}
      | more =>
        let shown := (more ++ [first]).map Value.shown
        return say s!"{v.shown} is valid under each of {Text.join comma shown}"
  | "not", _ => .ofExcept do
    if ← (here arg).isValid then
      return say s!"{v.shown} should not be valid under {arg.shown}"
    else return {}
  | "if", _ => .ofExcept do
    let next := if ← (here arg).isValid then "then" else "else"
    return ((Value.lookup next siblings).map here).getD {}
  | "properties", .map es => .each (entriesOf arg) fun (name, schema) =>
    match Value.lookup name es with
    | some w => judge.part c schema name w
    | none => {}
  | "patternProperties", .map _ => .each (entriesOf arg) fun (pattern, schema) =>
    .each (entriesOf v) fun (name, w) => .ofExcept do
      return if ← occurs pattern name then judge.part c schema name w else {}
  | "propertyNames", .map es => .each es fun e => judge c arg e.1
  | "additionalProperties", .map _ => .ofExcept do
    let extras ← additionalNames siblings v
    match arg, extras with
    | .map _, _ => return parts arg extras
    | _, [] => return {}
    | _, _ =>
      if arg.isTruthy then return {}
      else return say (additionalMessage siblings (extras.map Prod.fst))
  | "dependentSchemas", .map es | "dependencies", .map es =>
    .each (entriesOf arg) fun (name, schema) =>
      if (Value.lookup name es).isNone then {}
      else match schema with
        | .list needs => .each needs fun need =>
          if (Value.lookup need.asText es).isSome then {}
          else say s!"{need.shown} is a dependency of {Text.quoted name}"
        | _ => here schema
  | "prefixItems", .list xs => .each ((numbered 0 xs).zip (itemsOf arg)) fun (e, schema) =>
    judge.part c schema e.1 e.2
  | "items", .list xs =>
    if c.dialect == .draft2020 then
      let covered := (itemsOf ((Value.lookup "prefixItems" siblings).getD .null)).length
      let extras := xs.drop covered
      match arg, extras with
      | .bool false, [] => {}
      | .bool false, _ =>
        let rest := match extras with | [x] => x | _ => .list extras
        let noun := if covered == 1 then "item" else "items"
        let found := s!"but found {extras.length} extra: {rest.shown}"
        say s!"Expected at most {covered} {noun} {found}"
      | _, _ => parts arg (numbered covered extras)
    else match arg with
      | .list schemas => .each ((numbered 0 xs).zip schemas) fun (e, schema) =>
        judge.part c schema e.1 e.2
      | _ => parts arg (numbered 0 xs)
  | "additionalItems", .list xs => .ofExcept do
    match ← additionalItems siblings xs, arg with
    | none, _ => return {}
    | some extras, .map _ => return parts arg extras
    | some [], _ => return {}
    | some extras, _ =>
      if arg.isTruthy then return {}
      else
        let shown := unexpected (extras.map Prod.snd)
        return say s!"Additional items are not allowed ({shown} unexpected)"
  | "contains", .list xs => .ofExcept do
    let found := (← xs.filterM fun x => (judge c arg x).isValid).length
    if c.dialect.refStandsAlone then
      return if found == 0 then say s!"None of {v.shown} are valid under the given schema" else {}
    let least := (Value.lookup "minContains" siblings).getD (.int 1)
    let most := (Value.lookup "maxContains" siblings).getD (.ofNat xs.length)
    if most.less (.ofNat found) then
      let message := s!"Too many items match the given schema (expected at most {most.shown})"
      return { mismatches := [⟨[], message, some "maxContains", most⟩] }
    else if !(Value.ofNat found).less least then return {}
    else if found == 0 then
      return say s!"{v.shown} does not contain items matching the given schema"
    else
      let message := "Too few items match the given schema (expected at least " ++
        s!"{least.shown} but only {found} matched)"
      return { mismatches := [⟨[], message, some "minContains", least⟩] }
  | "format", .text s =>
    if c.checksFormats && arg.same (.text "regex") then
      match Regex.parse s with
      | .ok _ => {}
      | .error .malformed => say s!"{v.shown} is not a {arg.shown}"
      | .error e => { fault := some (patternFault s e) }
    else {}
  | _, _ => .ofExcept do
    return { mismatches := (← messages c.dialect siblings keyword arg v).map fun message =>
      ⟨[], message, some keyword, arg⟩ }
where
  comma : String := ", "

/-- The keywords of a schema that are looked at, references first. -/
def keywordsOf (d : Dialect) (siblings : List (Value × Value)) : List (String × Value) :=
  let all := (siblings.map fun e => (e.1.asText, e.2)).filter fun e => d.keywords.contains e.1
  let refs := all.filter fun e => e.1 == "$ref"
  if d.refStandsAlone && !refs.isEmpty then refs
  else refs ++ all.filter fun e => e.1 != "$ref"

/-- What a schema finds about a value; the fuel bounds the depth of schemas in schemas. -/
def findings : Nat → Judge
  | 0, _, _, _ => { fault := some .endlessReference }
  | fuel + 1, c, schema, v =>
    match schema with
    | .bool false => { mismatches := [refusal v] }
    | .map siblings => .ofExcept do
      let dialect ← Dialect.ofSchema c.dialect schema
      let c := { c with dialect }
      return .each (keywordsOf dialect siblings) fun (keyword, arg) =>
        applied (findings fuel) c siblings keyword arg v
    | _ => {}

/-- How deep schemas are followed. -/
def maxDepth : Nat := 400

/-- The first thing that makes a value no schema of its dialect. A fault behind it does not
count. -/
def firstFlaw? (d : Dialect) (schema : Value) : Except Fault (Option Mismatch) :=
  let f := findings maxDepth ⟨d, d.metaSchema, true⟩ d.metaSchema schema
  match f.mismatches, f.fault with
  | flaw :: _, _ => .ok (some flaw)
  | [], some fault => .error fault
  | [], none => .ok none

/-- The dialect of a schema, or what makes a value none. -/
def examine (schema : Value) : Except Fault (Except String Dialect) := do
  let d ← Dialect.ofSchema .latest schema
  match ← firstFlaw? d schema with
  | some flaw => return .error flaw.message
  | none => return .ok d

/-- The order of paths: part by part, and a path before those below it. -/
def pathAtMost : List String → List String → Bool
  | [], _ => true
  | _ :: _, [] => false
  | a :: as, b :: bs => if a == b then pathAtMost as bs else decide (a ≤ b)

/-- All mismatches of a value, in the order of their paths. -/
def mismatches (d : Dialect) (schema v : Value) : Except Fault (List Mismatch) :=
  let f := findings maxDepth ⟨d, schema, false⟩ schema v
  match f.fault with
  | some fault => .error fault
  | none => .ok (f.mismatches.mergeSort fun a b => pathAtMost a.path b.path)

end PluginAudit.Schema
