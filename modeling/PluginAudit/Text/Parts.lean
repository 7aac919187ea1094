namespace PluginAudit.Text

def startsWith (s head : String) : Bool :=
  head.toList.isPrefixOf s.toList

def endsWith (s tail : String) : Bool :=
  tail.toList.isSuffixOf s.toList

/-- The text after `head`, if it starts with it. -/
def afterHead? (s head : String) : Option String :=
  (head.toList.isPrefixOf? s.toList).map String.ofList

/-- The text from its `n`-th character on. -/
def dropChars (n : Nat) (s : String) : String :=
  String.ofList (s.toList.drop n)

def takeChars (n : Nat) (s : String) : String :=
  String.ofList (s.toList.take n)

/-- The parts between separators; `part` (backwards) is the one being read. -/
def splitFrom (sep : Char → Bool) (part : List Char) (parts : List String) :
    List Char → List String
  | [] => (String.ofList part.reverse :: parts).reverse
  | c :: rest =>
    if sep c then splitFrom sep [] (String.ofList part.reverse :: parts) rest
    else splitFrom sep (c :: part) parts rest

/-- The parts of a text between the characters that satisfy `sep`; at least one. -/
def splitBy (sep : Char → Bool) (s : String) : List String :=
  splitFrom sep [] [] s.toList

/-- The maximal parts of a text without characters that satisfy `sep`. -/
def words (sep : Char → Bool) (s : String) : List String :=
  (splitBy sep s).filter (· != "")

/-- The part after the last `sep`, or the whole text. -/
def lastPart (sep : Char) (s : String) : String :=
  String.ofList ((s.toList.reverse.takeWhile (· != sep)).reverse)

/-- The text before the first occurrence of `mark` and the text after it. -/
def breakAt (mark : List Char) (before : List Char) : List Char → Option (List Char × List Char)
  | [] => if mark.isEmpty then some (before.reverse, []) else none
  | c :: rest =>
    match mark.isPrefixOf? (c :: rest) with
    | some after => some (before.reverse, after)
    | none => breakAt mark (c :: before) rest

/-- Splits at the first occurrence of `mark`. -/
def cutAt? (mark s : String) : Option (String × String) :=
  (breakAt mark.toList [] s.toList).map fun p => (String.ofList p.1, String.ofList p.2)

def contains (s part : String) : Bool :=
  (breakAt part.toList [] s.toList).isSome

/-- Replaces each occurrence of a non-empty `mark`; `skip` characters belong to the last one. -/
def replaceFrom (mark new acc : List Char) : Nat → List Char → List Char
  | _, [] => acc.reverse
  | skip + 1, _ :: rest => replaceFrom mark new acc skip rest
  | 0, c :: rest =>
    if mark.isPrefixOf (c :: rest) then
      replaceFrom mark new (new.reverse ++ acc) (mark.length - 1) rest
    else replaceFrom mark new (c :: acc) 0 rest

/-- Replaces each occurrence of a non-empty `mark`, from left to right. -/
def replace (mark new s : String) : String :=
  String.ofList (replaceFrom mark.toList new.toList [] 0 s.toList)

def replaceChar (old new : Char) (s : String) : String :=
  s.map fun c => if c == old then new else c

def join (sep : String) (parts : List String) : String :=
  String.intercalate sep parts

/-- The lines of a text, ended by line feeds, as a list of their characters. -/
def linesOf (s : String) : List String :=
  splitBy (· == '\n') s

/-- Carriage returns, alone or before a line feed, become line feeds. -/
def unifyNewlines (acc : List Char) : List Char → List Char
  | [] => acc.reverse
  | '\r' :: '\n' :: rest => unifyNewlines ('\n' :: acc) rest
  | '\r' :: rest => unifyNewlines ('\n' :: acc) rest
  | c :: rest => unifyNewlines (c :: acc) rest

/-- The text with every line ended by a line feed. -/
def withNewlines (s : String) : String :=
  if s.any (· == '\r') then String.ofList (unifyNewlines [] s.toList) else s

/-- Texts in the order of their code points, without repetitions. -/
def sortedSet (names : List String) : List String :=
  (names.mergeSort fun a b => decide (a ≤ b)).eraseReps

/-- The list without later repetitions. -/
def distinct (names : List String) : List String :=
  names.foldl (fun seen s => if seen.contains s then seen else seen ++ [s]) []

end PluginAudit.Text
