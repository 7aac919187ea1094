import PluginAudit.Schema.Url

namespace PluginAudit.Schema

/-- The drafts of JSON Schema, in the order of their appearance. -/
inductive Dialect where
  | draft4
  | draft6
  | draft7
  | draft2019
  | draft2020
  deriving DecidableEq, Repr, Inhabited

namespace Dialect

def latest : Dialect := .draft2020

/-- The name by which a schema asks for a dialect. -/
def uri : Dialect → String
  | .draft4 => "http://json-schema.org/draft-04/schema"
  | .draft6 => "http://json-schema.org/draft-06/schema"
  | .draft7 => "http://json-schema.org/draft-07/schema"
  | .draft2019 => "https://json-schema.org/draft/2019-09/schema"
  | .draft2020 => "https://json-schema.org/draft/2020-12/schema"

def all : List Dialect := [.draft4, .draft6, .draft7, .draft2019, .draft2020]

/-- A name without an empty fragment at its end. -/
def bare (name : String) : String :=
  if Text.endsWith name "#" then Text.takeChars (name.length - 1) name else name

/-- The dialect of a name, if it has one. -/
def ofUri? (name : String) : Option Dialect :=
  all.find? fun d => d.uri == bare name

/-- The dialect with a name, or the given one. Names are compared as URLs. -/
def named (unset : Dialect) : Value → Except Fault Dialect
  | .text name => do
    let url ← Url.normal name
    return (all.find? fun d => d.uri == url).getD unset
  | .list _ | .map _ => .error .notName
  | v => if v.isTruthy then .error .notMapping else .ok unset

/-- The dialect that a schema asks for, or the given one. -/
def ofSchema (unset : Dialect) : Value → Except Fault Dialect
  | .bool _ => .ok unset
  | .map entries =>
    match Value.lookup "$schema" entries with
    | none => .ok unset
    | some v => named unset v
  | .list items =>
    if items.any fun v => v.same (.text "$schema") then .error .notName else .ok unset
  | .text s => if Text.contains s "$schema" then .error .notName else .ok unset
  | _ => .error .notCollection

def sinceDraft4 : List String :=
  ["$ref", "additionalProperties", "allOf", "anyOf", "enum", "format", "items", "maxItems",
    "maxLength", "maxProperties", "maximum", "minItems", "minLength", "minProperties", "minimum",
    "multipleOf", "not", "oneOf", "pattern", "patternProperties", "properties", "required",
    "type", "uniqueItems"]

def sinceDraft6 : List String :=
  ["const", "contains", "exclusiveMaximum", "exclusiveMinimum", "propertyNames"]

def since2019 : List String :=
  ["dependentRequired", "dependentSchemas", "if"]

/-- The keywords that are checked; all others, those on unevaluated parts among them, check
nothing. -/
def keywords : Dialect → List String
  | .draft4 => sinceDraft4 ++ ["additionalItems", "dependencies"]
  | .draft6 => sinceDraft4 ++ sinceDraft6 ++ ["additionalItems", "dependencies"]
  | .draft7 => sinceDraft4 ++ sinceDraft6 ++ ["if", "additionalItems", "dependencies"]
  | .draft2019 => sinceDraft4 ++ sinceDraft6 ++ since2019 ++ ["additionalItems"]
  | .draft2020 => sinceDraft4 ++ sinceDraft6 ++ since2019 ++ ["prefixItems"]

/-- In the older dialects a reference stands for the whole schema. -/
def refStandsAlone (d : Dialect) : Bool :=
  d == .draft4 || d == .draft6 || d == .draft7

end Dialect

end PluginAudit.Schema
