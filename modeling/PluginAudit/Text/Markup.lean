import PluginAudit.Fault
import PluginAudit.Text.Blank
import PluginAudit.Text.Case
import PluginAudit.Text.Parts

namespace PluginAudit.Text

namespace Markup

/-- A piece of a text: plain characters, or the inside of a tag. -/
inductive Piece where
  | plain (cs : List Char)
  | tag (name : String)
  deriving Repr

def mayBeginTag (c : Char) : Bool :=
  ('a' ≤ c && c ≤ 'z') || c == '#' || c == '/' || c == '@'

/-- The inside of a tag and what follows it, if the characters after a bracket are such. -/
def tagBody : List Char → Option (List Char × List Char)
  | c :: rest =>
    if mayBeginTag c then
      let inner := rest.takeWhile fun c => c != '[' && c != ']'
      match rest.drop inner.length with
      | ']' :: after => some (c :: inner, after)
      | _ => none
    else none
  | [] => none

/-- The pieces of a text. A backslash takes away the meaning of the bracket behind it, and two stand
for one of them in front of a tag. -/
def pieces : Nat → List Char → List Piece
  | 0, _ => []
  | _, [] => []
  | fuel + 1, c :: rest =>
    let slashes := (c :: rest).takeWhile (· == '\\')
    match (c :: rest).drop slashes.length with
    | '[' :: inner =>
      match tagBody inner with
      | some (body, after) =>
        .plain (slashes.take (slashes.length / 2)) ::
          (if slashes.length % 2 == 1 then .plain ('[' :: body ++ [']'])
            else .tag (String.ofList (body.takeWhile (· != '=')))) :: pieces fuel after
      | none => .plain (slashes.drop 1 ++ ['[']) :: pieces fuel inner
    | _ =>
      if slashes.isEmpty then .plain [c] :: pieces fuel rest
      else .plain slashes :: pieces fuel ((c :: rest).drop slashes.length)

/-- Takes the last tag of a name off the open ones. -/
def close (name : String) : List String → Option (List String)
  | [] => none
  | t :: rest => if t == name then some rest else (close name rest).map (t :: ·)

/-- The plain text of pieces; a tag that closes none of the open ones is a fault. -/
def plainOf (opened : List String) (acc : List Char) : List Piece → Except Fault String
  | [] => .ok (String.ofList acc)
  | .plain cs :: rest => plainOf opened (acc ++ cs) rest
  | .tag name :: rest =>
    match afterHead? name "/" with
    | none => plainOf (lower (strip name) :: opened) acc rest
    | some name =>
      let name := lower (strip name)
      let left := if name == "" then (if opened.isEmpty then none else some opened.tail)
        else close name opened
      match left with
      | some opened => plainOf opened acc rest
      | none => .error (.badMarkup name)

end Markup

/-- The text without its tags. -/
def withoutTags (s : String) : Except Fault String :=
  if s.any (· == '[') then Markup.plainOf [] [] (Markup.pieces (s.length + 1) s.toList) else .ok s

end PluginAudit.Text
