import PluginAudit.Text.CaseTables

namespace PluginAudit.Text

/-- The lower-case form of one character. -/
def lowerChar (c : Char) : Char :=
  if c.toNat < 128 then c.toLower
  else match lowerRuns.findSome? (·.mapped? c.toNat) with
    | some n => Char.ofNat n
    | none => c

def isCased (c : Char) : Bool :=
  if c.toNat < 128 then c.isAlpha else inRanges casedRanges c.toNat

def isCaseIgnorable (c : Char) : Bool :=
  inRanges caseIgnorableRanges c.toNat

/-- Whether a sigma with these neighbours ends a word; `before` is read backwards. -/
def sigmaIsFinal (before after : List Char) : Bool :=
  (match before.dropWhile isCaseIgnorable with
    | c :: _ => isCased c
    | [] => false) &&
  (match after.dropWhile isCaseIgnorable with
    | c :: _ => !isCased c
    | [] => true)

/-- The lower-case form of a character between its neighbours; it may be two characters. -/
def lowerIn (before after : List Char) (c : Char) : List Char :=
  if c.toNat == 0x130 then ['i', '\u0307']
  else if c.toNat == 0x3A3 then [if sigmaIsFinal before after then 'ς' else 'σ']
  else [lowerChar c]

/-- Lower-cases `rest`, of which `before` (backwards) stands in front; `acc` is built backwards. -/
def lowerFrom (before acc : List Char) : List Char → List Char
  | [] => acc.reverse
  | c :: rest => lowerFrom (c :: before) ((lowerIn before rest c).reverse ++ acc) rest

def lower (s : String) : String :=
  if s.all (fun (c : Char) => c.toNat < 128) then s.map Char.toLower
  else String.ofList (lowerFrom [] [] s.toList)

/-- The title-case form of one character. -/
def titleChar (c : Char) : List Char :=
  match titleLong.find? (·.1 == c.toNat) with
  | some (_, long) => long.map Char.ofNat
  | none =>
    match titleRuns.findSome? (·.mapped? c.toNat) with
    | some n => [Char.ofNat n]
    | none => [c]

/-- Each letter after a letter is lowered, each other letter raised. -/
def titleFrom (before acc : List Char) : List Char → List Char
  | [] => acc.reverse
  | c :: rest =>
    let shown := if before.head?.any isCased then lowerIn before rest c else titleChar c
    titleFrom (c :: before) (shown.reverse ++ acc) rest

def title (s : String) : String :=
  String.ofList (titleFrom [] [] s.toList)

/-- A representative of all characters equal to `c` when case is ignored. -/
def foldChar (c : Char) : Char :=
  let l := lowerChar c
  match foldPairs.find? (·.1 == l.toNat) with
  | some (_, n) => Char.ofNat n
  | none => l

/-- Equality of characters when case is ignored. -/
def sameFolded (a b : Char) : Bool :=
  a == b || foldChar a == foldChar b

end PluginAudit.Text
