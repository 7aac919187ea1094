import PluginAudit.Schema.Dialect

namespace PluginAudit.Schema

namespace Meta

/-- A schema with one keyword. -/
def one (keyword : String) (arg : Value) : Value :=
  .object [(keyword, arg)]

def ofType (name : String) : Value := one "type" (.text name)

def ref (name : String) : Value := one "$ref" (.text name)

/-- A schema inside of another. -/
def nested : Value := ref "#"

def schemas : Value :=
  .object [("type", .text "array"), ("minItems", .int 1), ("items", nested)]

def namedSchemas : Value :=
  .object [("type", .text "object"), ("additionalProperties", nested)]

def patternSchemas : Value :=
  .object [("type", .text "object"), ("additionalProperties", nested),
    ("propertyNames", one "format" (.text "regex"))]

def count : Value := .object [("type", .text "integer"), ("minimum", .int 0)]

def distinctTexts : Value :=
  .object [("type", .text "array"), ("items", ofType "string"), ("uniqueItems", .bool true)]

def typeName : Value :=
  one "enum" (.texts ["array", "boolean", "integer", "null", "number", "object", "string"])

def typeNames : Value :=
  one "anyOf" (.list [typeName,
    .object [("type", .text "array"), ("items", typeName), ("minItems", .int 1),
      ("uniqueItems", .bool true)]])

def pattern : Value := .object [("type", .text "string"), ("format", .text "regex")]

def anchorName : Value :=
  .object [("type", .text "string"), ("pattern", .text "^[A-Za-z_][-A-Za-z0-9._]*$")]

def schemaOrBoolean : Value := one "anyOf" (.list [ofType "boolean", nested])

def schemaOrSchemas : Value := one "anyOf" (.list [nested, schemas])

def schemaOrTexts (texts : Value) : Value := one "anyOf" (.list [nested, texts])

def values (schema : Value) : Value :=
  .object [("type", .text "object"), ("additionalProperties", schema)]

/-- The same schema for several properties. -/
def each (names : List String) (schema : Value) : List (String × Value) :=
  names.map fun name => (name, schema)

def objectOrBoolean : Value := .texts ["object", "boolean"]

/-- The keywords of one subject. -/
def vocabulary (properties : List (String × Value)) : Value :=
  .object [("type", objectOrBoolean), ("properties", .object properties)]

def core : List (String × Value) :=
  [("$id", .object [("type", .text "string"), ("pattern", .text "^[^#]*#?$")])] ++
  each ["$schema", "$ref"] (ofType "string") ++
  [("$anchor", anchorName), ("$dynamicRef", ofType "string"), ("$dynamicAnchor", anchorName),
    ("$vocabulary", values (ofType "boolean")), ("$comment", ofType "string"),
    ("$defs", namedSchemas)]

def bounds : List (String × Value) :=
  ("multipleOf", .object [("type", .text "number"), ("exclusiveMinimum", .int 0)]) ::
  each ["maximum", "exclusiveMaximum", "minimum", "exclusiveMinimum"] (ofType "number") ++
  each ["maxLength", "minLength"] count ++ [("pattern", pattern)] ++
  each ["maxItems", "minItems"] count ++ [("uniqueItems", ofType "boolean")]

def counts : List (String × Value) :=
  each ["maxContains", "minContains", "maxProperties", "minProperties"] count ++
  [("required", distinctTexts), ("dependentRequired", values distinctTexts)]

def metaData : List (String × Value) :=
  each ["title", "description"] (ofType "string") ++
  each ["deprecated", "readOnly", "writeOnly"] (ofType "boolean") ++ [("examples", ofType "array")]

def objectParts : List (String × Value) :=
  [("properties", namedSchemas), ("patternProperties", patternSchemas),
    ("dependentSchemas", namedSchemas)] ++
  each ["propertyNames", "if", "then", "else"] nested ++
  each ["allOf", "anyOf", "oneOf"] schemas ++ [("not", nested)]

def contentParts : List (String × Value) :=
  each ["contentEncoding", "contentMediaType"] (ofType "string") ++ [("contentSchema", nested)]

def kinds : List (String × Value) :=
  [("type", typeNames), ("enum", ofType "array")]

/-- Keywords of earlier dialects that keep their meaning. -/
def kept : List (String × Value) :=
  [("definitions", namedSchemas), ("dependencies", values (schemaOrTexts distinctTexts))]

def inVocabularies (vocabularies : List (List (String × Value))) : Value :=
  .object [("allOf", .list (vocabularies.map vocabulary)), ("type", objectOrBoolean),
    ("properties", .object kept)]

def draft2020 : Value :=
  inVocabularies [core,
    ("prefixItems", schemas) :: each ["items", "contains", "additionalProperties"] nested ++
      objectParts,
    each ["unevaluatedItems", "unevaluatedProperties"] nested,
    kinds ++ bounds ++ counts, metaData, [("format", ofType "string")], contentParts]

def draft2019 : Value :=
  inVocabularies [core,
    each ["additionalItems", "unevaluatedItems"] nested ++ [("items", schemaOrSchemas)] ++
      each ["contains", "additionalProperties", "unevaluatedProperties"] nested ++ objectParts,
    bounds ++ counts ++ [("enum", ofType "array"), ("type", typeNames)], metaData,
    [("format", ofType "string")], contentParts]

def beforeItems (newer : Bool) : List (String × Value) :=
  each (["$id", "$schema", "$ref"] ++ (if newer then ["$comment"] else []) ++
    ["title", "description"]) (ofType "string") ++
  (if newer then [("readOnly", ofType "boolean")] else []) ++ [("examples", ofType "array")]

/-- The schema of draft 7, and without its newer keywords that of draft 6. -/
def draft7 (newer : Bool) : Value :=
  .object [("type", objectOrBoolean), ("properties", .object (
    beforeItems newer ++ bounds.take 8 ++
    [("additionalItems", nested), ("items", schemaOrSchemas)] ++ bounds.drop 8 ++
    [("contains", nested)] ++ each ["maxProperties", "minProperties"] count ++
    [("required", distinctTexts), ("additionalProperties", nested), ("definitions", namedSchemas),
      ("properties", namedSchemas), ("patternProperties", patternSchemas),
      ("dependencies", values (schemaOrTexts distinctTexts)), ("propertyNames", nested),
      ("enum", ofType "array"), ("type", typeNames), ("format", ofType "string")] ++
    (if newer then
      each ["contentMediaType", "contentEncoding"] (ofType "string") ++
        each ["if", "then", "else"] nested
    else []) ++
    each ["allOf", "anyOf", "oneOf"] schemas ++ [("not", nested)]))]

def someTexts : Value :=
  .object [("type", .text "array"), ("items", ofType "string"), ("minItems", .int 1),
    ("uniqueItems", .bool true)]

def draft4 : Value :=
  .object [("type", .text "object"), ("properties", .object (
    each ["id", "$schema", "title", "description"] (ofType "string") ++
    [("multipleOf", .object [("type", .text "number"), ("minimum", .int 0),
        ("exclusiveMinimum", .bool true)]),
      ("maximum", ofType "number"), ("exclusiveMaximum", ofType "boolean"),
      ("minimum", ofType "number"), ("exclusiveMinimum", ofType "boolean")] ++
    each ["maxLength", "minLength"] count ++
    [("pattern", pattern), ("additionalItems", schemaOrBoolean), ("items", schemaOrSchemas)] ++
    each ["maxItems", "minItems"] count ++ [("uniqueItems", ofType "boolean")] ++
    each ["maxProperties", "minProperties"] count ++
    [("required", someTexts), ("additionalProperties", schemaOrBoolean)] ++
    each ["definitions", "properties", "patternProperties"] namedSchemas ++
    [("dependencies", values (schemaOrTexts someTexts)), ("enum", ofType "array"),
      ("type", typeNames), ("format", ofType "string")] ++
    each ["allOf", "anyOf", "oneOf"] schemas ++ [("not", nested)])),
    ("dependencies", .object [("exclusiveMaximum", .texts ["maximum"]),
      ("exclusiveMinimum", .texts ["minimum"])])]

end Meta

/-- The schema of all schemas of a dialect. -/
def Dialect.metaSchema : Dialect → Value
  | .draft4 => Meta.draft4
  | .draft6 => Meta.draft7 false
  | .draft7 => Meta.draft7 true
  | .draft2019 => Meta.draft2019
  | .draft2020 => Meta.draft2020

end PluginAudit.Schema
