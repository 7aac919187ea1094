import PluginAudit.Schema.Meta
import PluginAudit.Value.Integer

namespace PluginAudit.Schema

def hexDigit? (c : Char) : Option UInt8 :=
  if c.isDigit then some (UInt8.ofNat (c.toNat - 48))
  else if 'a' ≤ c.toLower ∧ c.toLower ≤ 'f' then some (UInt8.ofNat (c.toLower.toNat - 87))
  else none

/-- The bytes of a text in which percent signs and two digits stand for bytes. -/
def unquotedBytes (acc : ByteArray) : List Char → ByteArray
  | '%' :: a :: b :: rest =>
    match hexDigit? a, hexDigit? b with
    | some x, some y => unquotedBytes (acc.push (x * 16 + y)) rest
    | _, _ => unquotedBytes (acc.push 37) (a :: b :: rest)
  | c :: rest => unquotedBytes (acc ++ (String.ofList [c]).toUTF8) rest
  | [] => acc
termination_by cs => cs.length

def unquoted (s : String) : String :=
  Text.decodeReplacing (unquotedBytes ByteArray.empty s.toList)

/-- The steps of a pointer, of which the first slash is left out. -/
def pointerSteps (pointer : String) : List String :=
  Text.splitBy (· == '/') (unquoted pointer)

/-- The value that a pointer leads to. -/
def follow (ref : String) : List String → Value → Except Fault Value
  | [], v => .ok v
  | step :: rest, .map entries =>
    match Value.lookup (Text.replace "~0" "~" (Text.replace "~1" "/" step)) entries with
    | some v => follow ref rest v
    | none => .error (.noReferent ref)
  | step :: rest, .list items =>
    match Text.integer? step with
    | none => .error (.badInteger step)
    | some n =>
      let i := if n < 0 then n + items.length else n
      match if i < 0 then none else items[i.toNat]? with
      | some v => follow ref rest v
      | none => .error (.noReferent ref)
  | _, _ => .error .notCollection

/-- Whether a schema goes by the given name inside its document. -/
def isNamed (name : String) (v : Value) : Bool :=
  ["$anchor", "$dynamicAnchor"].any (fun k => (v.get? k).any (·.same (.text name))) ||
    ["$id", "id"].any fun k => (v.get? k).any (·.same (.text ("#" ++ name)))

mutual

/-- The first schema of a document, from the outside, that goes by a name. -/
def named? (name : String) : Value → Option Value
  | .map entries =>
    if isNamed name (.map entries) then some (.map entries) else namedInEntries? name entries
  | .list items => namedInItems? name items
  | _ => none

def namedInEntries? (name : String) : List (Value × Value) → Option Value
  | [] => none
  | (_, v) :: rest => (named? name v).orElse fun _ => namedInEntries? name rest

def namedInItems? (name : String) : List Value → Option Value
  | [] => none
  | v :: rest => (named? name v).orElse fun _ => namedInItems? name rest

end

/-- The document that a reference names: the current one, or the schema of a dialect. -/
def documentOf? (current : Value) (name : String) : Option Value :=
  let id := ((current.get? "$id").orElse fun _ => current.get? "id").map Value.asText
  if name == "" || id.map Dialect.bare == some name then some current
  else (Dialect.ofUri? name).map Dialect.metaSchema

/-- The document and the schema in it that a reference means. -/
def resolve (current : Value) (ref : String) : Except Fault (Value × Value) :=
  let (name, fragment) := (Text.cutAt? "#" ref).getD (ref, "")
  match documentOf? current name with
  | none => .error (.noReferent ref)
  | some document =>
    if fragment == "" then .ok (document, document)
    else match Text.afterHead? fragment "/" with
      | some pointer => (follow ref (pointerSteps pointer) document).map (document, ·)
      | none =>
        match named? fragment document with
        | some schema => .ok (document, schema)
        | none => .error (.noReferent ref)

end PluginAudit.Schema
