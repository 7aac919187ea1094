import PluginAudit.Text.Blank
import PluginAudit.Text.Case
import PluginAudit.Text.Word

namespace PluginAudit.Text

/-- A place in a text: the characters before it, the nearest first, and those after it. -/
structure Place where
  before : List Char
  after : List Char
  deriving DecidableEq, Repr, Inhabited

/-- The place one character further. -/
def Place.next (p : Place) : Place :=
  match p.after with
  | [] => p
  | c :: rest => ⟨c :: p.before, rest⟩

/-- The readings at a place, each with the place where it ends. -/
structure Recognizer (α : Type) where
  read : Place → List (α × Place)

namespace Recognizer

variable {α β : Type}

instance : Monad Recognizer where
  pure a := ⟨fun p => [(a, p)]⟩
  bind r f := ⟨fun p => (r.read p).flatMap fun e => (f e.1).read e.2⟩

/-- The readings of the first, then those of the second. -/
def orElse (r s : Recognizer α) : Recognizer α :=
  ⟨fun p => r.read p ++ s.read p⟩

/-- A condition on the characters before the place. -/
def behind (test : List Char → Bool) : Recognizer Unit :=
  ⟨fun p => if test p.before then [((), p)] else []⟩

/-- A condition on the characters after the place. -/
def ahead (test : List Char → Bool) : Recognizer Unit :=
  ⟨fun p => if test p.after then [((), p)] else []⟩

/-- No character that satisfies `test` stands before the place. -/
def notAfter (test : Char → Bool) : Recognizer Unit :=
  behind fun cs => !cs.head?.any test

/-- No character that satisfies `test` stands after the place. -/
def notBefore (test : Char → Bool) : Recognizer Unit :=
  ahead fun cs => !cs.head?.any test

/-- One character that satisfies `test`. -/
def one (test : Char → Bool) : Recognizer Unit :=
  ⟨fun p =>
    match p.after with
    | c :: rest => if test c then [((), ⟨c :: p.before, rest⟩)] else []
    | [] => []⟩

/-- The ends of all runs of characters that satisfy `test`, the longest first. -/
def runEnds (test : Char → Bool) (ends : List (Unit × Place)) (before : List Char) :
    List Char → List (Unit × Place)
  | [] => ((), ⟨before, []⟩) :: ends
  | c :: rest =>
    let ends := ((), ⟨before, c :: rest⟩) :: ends
    if test c then runEnds test ends (c :: before) rest else ends

/-- Any number of characters that satisfy `test`, as many as possible. -/
def run (test : Char → Bool) : Recognizer Unit :=
  ⟨fun p => runEnds test [] p.before p.after⟩

/-- The end of the longest run of characters that satisfy `test`. -/
def spanEnd (test : Char → Bool) (before : List Char) : List Char → Place
  | [] => ⟨before, []⟩
  | c :: rest => if test c then spanEnd test (c :: before) rest else ⟨before, c :: rest⟩

/-- All the characters that satisfy `test`, at least one. -/
def span (test : Char → Bool) : Recognizer Unit :=
  ⟨fun p =>
    match p.after with
    | c :: rest => if test c then [((), spanEnd test (c :: p.before) rest)] else []
    | [] => []⟩

/-- The ends after each occurrence of `mark`, the nearest first. -/
def marks (mark : Char) (ends : List (Unit × Place)) (before : List Char) :
    List Char → List (Unit × Place)
  | [] => ends.reverse
  | c :: rest =>
    let ends := if c == mark then ((), ⟨c :: before, rest⟩) :: ends else ends
    marks mark ends (c :: before) rest

/-- Everything up to and including `mark`, as little as possible. -/
def upTo (mark : Char) : Recognizer Unit :=
  ⟨fun p => marks mark [] p.before p.after⟩

/-- The place after a word, read without regard to case. -/
def wordEnd (before : List Char) : List Char → List Char → Option Place
  | [], after => some ⟨before, after⟩
  | w :: ws, c :: rest => if sameFolded w c then wordEnd (c :: before) ws rest else none
  | _ :: _, [] => none

/-- A given word, in whatever case. -/
def word (w : String) : Recognizer Unit :=
  ⟨fun p => ((wordEnd p.before w.toList p.after).map fun e => ((), e)).toList⟩

/-- One of the given words, in whatever case, the first ones preferred. -/
def oneOf (ws : List String) : Recognizer Unit :=
  ⟨fun p => ws.filterMap fun w => (wordEnd p.before w.toList p.after).map fun e => ((), e)⟩

/-- From `least` to `most` times the same character, as often as possible. -/
def times (c : Char) (least most : Nat) : Recognizer Unit :=
  let rec ends (done : Nat) (p : Place) : Nat → List (Unit × Place)
    | 0 => if least ≤ done then [((), p)] else []
    | left + 1 =>
      (if p.after.head? == some c then ends (done + 1) p.next left else []) ++
        if least ≤ done then [((), p)] else []
  ⟨fun p => ends 0 p most⟩

/-- The recognizer, or nothing. -/
def optional (r : Recognizer Unit) : Recognizer Unit :=
  orElse r (pure ())

/-- The text of what is read. -/
def text (r : Recognizer Unit) : Recognizer String :=
  ⟨fun p => (r.read p).map fun e =>
    (String.ofList (e.2.before.take (e.2.before.length - p.before.length)).reverse, e.2)⟩

/-- The blanks at a place, if any. -/
def blanks : Recognizer Unit :=
  run isBlank

/-- At least one blank. -/
def someBlanks : Recognizer Unit := do
  one isBlank
  run isBlank

/-- The edge between a character of a word and another one. -/
def edge : Recognizer Unit :=
  ⟨fun p => if p.before.head?.any isWord != p.after.head?.any isWord then [((), p)] else []⟩

/-- The preferred reading at the first place, from a given one on, that has any. -/
def searchFrom (r : Recognizer α) (before : List Char) : List Char → Option (α × Place)
  | [] => (r.read ⟨before, []⟩).head?
  | c :: rest =>
    match r.read ⟨before, c :: rest⟩ with
    | e :: _ => some e
    | [] => searchFrom r (c :: before) rest

/-- The preferred reading at the first place of a text that has any. -/
def search (r : Recognizer α) (s : String) : Option α :=
  (searchFrom r [] s.toList).map Prod.fst

/-- Whether there is a reading at some place. -/
def occurs (r : Recognizer α) (s : String) : Bool :=
  (search r s).isSome

/-- The preferred reading at the beginning of a text. -/
def atStart (r : Recognizer α) (s : String) : Option α :=
  ((r.read ⟨[], s.toList⟩).head?).map Prod.fst

/-- The readings one after the other, each at the first place after the last; at most `fuel`. -/
def searchAllFrom (r : Recognizer α) (acc : List α) : Nat → Place → List α
  | 0, _ => acc.reverse
  | fuel + 1, p =>
    match searchFrom r p.before p.after with
    | none => acc.reverse
    | some (a, q) => searchAllFrom r (a :: acc) fuel q

/-- All readings of a text that do not overlap, for a recognizer that reads at least one
character. -/
def searchAll (r : Recognizer α) (s : String) : List α :=
  let cs := s.toList
  searchAllFrom r [] (cs.length + 1) ⟨[], cs⟩

end Recognizer

end PluginAudit.Text
