import PluginAudit.Php.Names

namespace PluginAudit.Php

/-- What can stand between two tokens: a blank, a comment between `/*` and `*/`, or one up to the end
of its line. -/
inductive Trivia where
  | blank (c : Char)
  | block (body : String)
  | line (mark body : String)
  deriving DecidableEq

abbrev Gap := List Trivia

namespace Trivia

def chars : Trivia → List Char
  | blank c => [c]
  | block body => "/*".toList ++ body.toList ++ "*/".toList
  | line mark body => mark.toList ++ body.toList ++ ['\n']

/-- A comment does not hold its own end, and `#[` starts no comment. -/
def Proper : Trivia → Prop
  | blank c => c ∈ [' ', '\t', '\n', '\r']
  | block body => ¬ "*/".toList <:+: body.toList
  | line mark body => (mark = "//" ∨ mark = "#" ∧ body.toList.head? ≠ some '[') ∧
      '\n' ∉ body.toList ∧ '\r' ∉ body.toList ∧ ¬ "?>".toList <:+: body.toList

instance : DecidablePred Proper
  | blank c => inferInstanceAs (Decidable (c ∈ [' ', '\t', '\n', '\r']))
  | block body => inferInstanceAs (Decidable (¬ "*/".toList <:+: body.toList))
  | line mark body => inferInstanceAs (Decidable ((mark = "//" ∨ mark = "#" ∧
      body.toList.head? ≠ some '[') ∧ '\n' ∉ body.toList ∧ '\r' ∉ body.toList ∧
      ¬ "?>".toList <:+: body.toList))

def isBlank : Trivia → Bool
  | blank _ => true
  | _ => false

end Trivia

namespace Gap

def chars (g : Gap) : List Char :=
  g.flatMap Trivia.chars

def Proper (g : Gap) : Prop :=
  ∀ t ∈ g, t.Proper

instance : DecidablePred Proper :=
  fun g => inferInstanceAs (Decidable (∀ t ∈ g, t.Proper))

def Blank (g : Gap) : Prop :=
  ∀ t ∈ g, t.isBlank = true

instance : DecidablePred Blank :=
  fun g => inferInstanceAs (Decidable (∀ t ∈ g, t.isBlank = true))

end Gap

/-- A word of the language, in any case. -/
def Spells (written word : String) : Prop :=
  written.toList.map Char.toLower = word.toList

instance (written word : String) : Decidable (Spells written word) :=
  inferInstanceAs (Decidable (_ = _))

def useWords : List String := ["use", "function", "const", "as"]

/-- A letter or underscore, or anything beyond ASCII, then also digits. -/
def IsIdentifier (s : String) : Prop :=
  s ≠ "" ∧ (∀ c ∈ s.toList, c.isAlphanum = true ∨ c = '_' ∨ 128 ≤ c.toNat) ∧
    s.toList.head?.any Char.isDigit = false

instance : DecidablePred IsIdentifier := fun s =>
  have : Decidable (∀ c ∈ s.toList, c.isAlphanum = true ∨ c = '_' ∨ 128 ≤ c.toNat) :=
    List.decidableBAll _ s.toList
  inferInstanceAs (Decidable (s ≠ "" ∧
    (∀ c ∈ s.toList, c.isAlphanum = true ∨ c = '_' ∨ 128 ≤ c.toNat) ∧
    s.toList.head?.any Char.isDigit = false))

/-- The word that tells what is imported, and what stands behind it. -/
structure KindWord where
  kind : ImportKind
  word : String
  gap : Gap

namespace KindWord

def chars (k : KindWord) : List Char :=
  k.word.toList ++ k.gap.chars

structure Proper (k : KindWord) : Prop where
  kind : k.kind ≠ .className
  word : Spells k.word k.kind.label
  gap : k.gap.Proper ∧ k.gap ≠ []

instance : DecidablePred Proper :=
  fun k => decidable_of_iff (k.kind ≠ .className ∧ Spells k.word k.kind.label ∧
    k.gap.Proper ∧ k.gap ≠ []) ⟨fun ⟨kind, word, gap⟩ => ⟨kind, word, gap⟩,
    fun ⟨kind, word, gap⟩ => ⟨kind, word, gap⟩⟩

end KindWord

/-- A name with the backslashes between its segments, and with one in front if it is rooted. -/
structure UseName where
  rooted : Bool
  segments : List String

namespace UseName

def chars (n : UseName) : List Char :=
  (if n.rooted then ['\\'] else []) ++ (Text.join "\\" n.segments).toList

/-- A single identifier, which must not be a word of the language. -/
def IsBare (n : UseName) : Prop :=
  n.rooted = false ∧ n.segments.length = 1

structure Proper (n : UseName) : Prop where
  nonempty : n.segments ≠ []
  identifiers : ∀ s ∈ n.segments, IsIdentifier s
  bare : n.IsBare → ∀ s ∈ n.segments, ∀ word ∈ useWords, ¬ Spells s word

instance : DecidablePred IsBare :=
  fun n => inferInstanceAs (Decidable (n.rooted = false ∧ n.segments.length = 1))

instance : DecidablePred Proper :=
  fun n => decidable_of_iff (n.segments ≠ [] ∧ (∀ s ∈ n.segments, IsIdentifier s) ∧
    (n.IsBare → ∀ s ∈ n.segments, ∀ word ∈ useWords, ¬ Spells s word))
    ⟨fun ⟨nonempty, identifiers, bare⟩ => ⟨nonempty, identifiers, bare⟩,
    fun ⟨nonempty, identifiers, bare⟩ => ⟨nonempty, identifiers, bare⟩⟩

end UseName

/-- The part of an import from its `as` on. -/
structure UseAlias where
  before : Gap
  word : String
  gap : Gap
  name : String

namespace UseAlias

def chars (a : UseAlias) : List Char :=
  a.before.chars ++ a.word.toList ++ a.gap.chars ++ a.name.toList

structure Proper (a : UseAlias) : Prop where
  before : a.before.Proper ∧ a.before ≠ []
  word : Spells a.word "as"
  gap : a.gap.Proper ∧ a.gap ≠ []
  name : IsIdentifier a.name ∧ ∀ word ∈ useWords, ¬ Spells a.name word

instance : DecidablePred Proper :=
  fun a => decidable_of_iff ((a.before.Proper ∧ a.before ≠ []) ∧ Spells a.word "as" ∧
    (a.gap.Proper ∧ a.gap ≠ []) ∧ IsIdentifier a.name ∧ ∀ word ∈ useWords, ¬ Spells a.name word)
    ⟨fun ⟨before, word, gap, name⟩ => ⟨before, word, gap, name⟩,
    fun ⟨before, word, gap, name⟩ => ⟨before, word, gap, name⟩⟩

end UseAlias

/-- One import of a declaration, with the gaps around it. -/
structure UseClause where
  before : Gap := []
  kind : Option KindWord := none
  name : UseName
  knownAs : Option UseAlias := none
  after : Gap := []

namespace UseClause

def core (c : UseClause) : List Char :=
  (c.kind.map KindWord.chars).getD [] ++ c.name.chars ++ (c.knownAs.map UseAlias.chars).getD []

def chars (c : UseClause) : List Char :=
  c.before.chars ++ c.core ++ c.after.chars

structure Proper (c : UseClause) : Prop where
  before : c.before.Proper
  kind : ∀ k ∈ c.kind, k.Proper
  name : c.name.Proper
  knownAs : ∀ a ∈ c.knownAs, a.Proper
  after : c.after.Proper

instance : DecidablePred Proper :=
  fun c => decidable_of_iff (c.before.Proper ∧ (∀ k ∈ c.kind, k.Proper) ∧ c.name.Proper ∧
    (∀ a ∈ c.knownAs, a.Proper) ∧ c.after.Proper)
    ⟨fun ⟨before, kind, name, knownAs, after⟩ => ⟨before, kind, name, knownAs, after⟩,
    fun ⟨before, kind, name, knownAs, after⟩ => ⟨before, kind, name, knownAs, after⟩⟩

/-- What the import makes known, below the name of its group and with the kind of its declaration. -/
def meaning (kind : ImportKind) (front : List String) (c : UseClause) : Import where
  kind := (c.kind.map KindWord.kind).getD kind
  name := Text.join "\\" (front ++ c.name.segments)
  knownAs := (c.knownAs.map UseAlias.name).getD (c.name.segments.getLastD "")

end UseClause

/-- The name in front of a group, and the gaps around the backslash behind it. -/
structure GroupBase where
  name : UseName
  before : Gap := []
  after : Gap := []

def GroupBase.chars (b : GroupBase) : List Char :=
  b.name.chars ++ b.before.chars ++ '\\' :: b.after.chars

structure GroupBase.Proper (b : GroupBase) : Prop where
  name : b.name.Proper
  before : b.before.Proper
  after : b.after.Proper

instance : DecidablePred GroupBase.Proper :=
  fun b => decidable_of_iff (b.name.Proper ∧ b.before.Proper ∧ b.after.Proper)
    ⟨fun ⟨name, before, after⟩ => ⟨name, before, after⟩,
    fun ⟨name, before, after⟩ => ⟨name, before, after⟩⟩

/-- A `use` declaration: a list of imports, or a group of them in braces, where a comma can follow the
last one. -/
structure UseDeclaration where
  word : String := "use"
  gap : Gap := [.blank ' ']
  kind : Option KindWord := none
  base : Option GroupBase := none
  clauses : List UseClause
  trailing : Option Gap := none
  closing : Gap := []
  semicolon : Bool := true

namespace UseDeclaration

def parts (d : UseDeclaration) : List (List Char) :=
  d.clauses.map UseClause.chars ++ (d.trailing.map Gap.chars).toList

def body (d : UseDeclaration) : List Char :=
  match d.base with
  | some b => b.chars ++ '\x7b' :: [','].intercalate d.parts ++ ['\x7d']
  | none => [','].intercalate d.parts

def text (d : UseDeclaration) : String :=
  String.ofList (d.word.toList ++ d.gap.chars ++ (d.kind.map KindWord.chars).getD [] ++ d.body ++
    d.closing.chars ++ if d.semicolon then [';'] else [])

/-- The kind of all imports that tell none of their own. -/
def commonKind (d : UseDeclaration) : ImportKind :=
  (d.kind.map KindWord.kind).getD .className

/-- The segments of the name in front of the group, if there is one. -/
def front (d : UseDeclaration) : List String :=
  (d.base.map fun b => b.name.segments).getD []

def imports (d : UseDeclaration) : List Import :=
  d.clauses.map (UseClause.meaning d.commonKind d.front)

/-- The declaration is well formed. Blanks at the ends of a list belong to the declaration. -/
structure Proper (d : UseDeclaration) : Prop where
  word : Spells d.word "use"
  gap : d.gap.Proper ∧ d.gap ≠ []
  kind : ∀ k ∈ d.kind, k.Proper
  base : ∀ b ∈ d.base, b.Proper
  clauses : ∀ c ∈ d.clauses, c.Proper
  nonempty : d.clauses ≠ []
  list : d.base = none → d.trailing = none ∧ (∀ c ∈ d.clauses, c.kind = none) ∧
    (∀ c ∈ d.clauses.head?, c.before = []) ∧ ∀ c ∈ d.clauses.getLast?, c.after = []
  group : d.base.isSome = true → ∀ c ∈ d.clauses, c.name.rooted = false
  common : d.kind.isSome = true → ∀ c ∈ d.clauses, c.kind = none
  trailing : ∀ g ∈ d.trailing, g.Proper
  closing : d.closing.Proper

instance : DecidablePred Proper :=
  fun d => decidable_of_iff (Spells d.word "use" ∧ (d.gap.Proper ∧ d.gap ≠ []) ∧
    (∀ k ∈ d.kind, k.Proper) ∧ (∀ b ∈ d.base, b.Proper) ∧ (∀ c ∈ d.clauses, c.Proper) ∧
    d.clauses ≠ [] ∧ (d.base = none → d.trailing = none ∧ (∀ c ∈ d.clauses, c.kind = none) ∧
      (∀ c ∈ d.clauses.head?, c.before = []) ∧ ∀ c ∈ d.clauses.getLast?, c.after = []) ∧
    (d.base.isSome = true → ∀ c ∈ d.clauses, c.name.rooted = false) ∧
    (d.kind.isSome = true → ∀ c ∈ d.clauses, c.kind = none) ∧
    (∀ g ∈ d.trailing, g.Proper) ∧ d.closing.Proper)
    ⟨fun ⟨word, gap, kind, base, clauses, nonempty, list, group, common, trailing, closing⟩ =>
      ⟨word, gap, kind, base, clauses, nonempty, list, group, common, trailing, closing⟩,
    fun ⟨word, gap, kind, base, clauses, nonempty, list, group, common, trailing, closing⟩ =>
      ⟨word, gap, kind, base, clauses, nonempty, list, group, common, trailing, closing⟩⟩

end UseDeclaration

end PluginAudit.Php
