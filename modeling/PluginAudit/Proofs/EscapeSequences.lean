import PluginAudit.Php.Literal
import PluginAudit.Proofs.Trees

namespace PluginAudit.Php

/-- The number that digits of a base write. -/
def numeral (base : Nat) (digits : List Char) : Nat :=
  digits.foldl (fun n c => n * base + digit c) 0
where
  digit (c : Char) : Nat :=
    if c.isDigit then c.toNat - 48 else c.toLower.toNat - 87

/-- The bytes of a code point, of which surrogates are no exception. -/
def codePointBytes (n : Nat) : List UInt8 :=
  if n < 0x80 then [.ofNat n]
  else if n < 0x800 then [.ofNat (0xC0 + n / 64), .ofNat (0x80 + n % 64)]
  else if n < 0x10000 then
    [.ofNat (0xE0 + n / 4096), .ofNat (0x80 + n / 64 % 64), .ofNat (0x80 + n % 64)]
  else
    [.ofNat (0xF0 + n / 262144), .ofNat (0x80 + n / 4096 % 64), .ofNat (0x80 + n / 64 % 64),
      .ofNat (0x80 + n % 64)]

/-- What a backslash may begin. A broken escape sequence belongs to no valid program. -/
inductive Escape where
  | letter (c : Char)
  | octal (first : Char) (more : List Char)
  | hex (mark first : Char) (more : List Char)
  | codePoint (first : Char) (more : List Char)
  | broken
  deriving DecidableEq, Repr

namespace Escape

/-- The characters after the backslash. -/
def tail : Escape → List Char
  | letter c => [c]
  | octal d ds => d :: ds
  | hex x d ds => x :: d :: ds
  | codePoint d ds => 'u' :: '{' :: d :: ds ++ ['}']
  | broken => ['u', '{']

/-- The character that a letter after a backslash stands for. -/
def meaning : Char → Char
  | 'n' => '\n'
  | 'r' => '\r'
  | 't' => '\t'
  | 'v' => '\x0b'
  | 'e' => '\x1b'
  | 'f' => '\x0c'
  | c => c

def bytes? : Escape → Option (List UInt8)
  | letter c => some (String.utf8EncodeChar (meaning c))
  | octal d ds => some [.ofNat (numeral 8 (d :: ds))]
  | hex _ d ds => some [.ofNat (numeral 16 (d :: ds))]
  | codePoint d ds =>
    if numeral 16 (d :: ds) ≤ 0x10FFFF then some (codePointBytes (numeral 16 (d :: ds))) else none
  | broken => none

def isOctal (c : Char) : Bool :=
  '0' ≤ c && c ≤ '7'

def isHex (c : Char) : Bool :=
  c.isDigit || ('a' ≤ c && c ≤ 'f') || ('A' ≤ c && c ≤ 'F')

/-- The escape sequence of digits that starts with a character after a backslash. -/
def ofDigits? (c : Char) (rest : List Char) : Option Escape :=
  if isOctal c then some (.octal c ((rest.take 2).takeWhile isOctal))
  else if c = 'x' ∨ c = 'X' then
    match (rest.take 2).takeWhile isHex with
    | d :: ds => some (.hex c d ds)
    | [] => none
  else if c = 'u' ∧ rest.head? = some '{' then
    match rest.tail.takeWhile isHex, rest.tail.dropWhile isHex with
    | d :: ds, '}' :: _ => some (.codePoint d ds)
    | _, _ => some .broken
  else none

end Escape

/-- The marks around a string. -/
inductive Quote where
  | single
  | double
  deriving DecidableEq, Repr

/-- A string is made of characters that stand for themselves and of escape sequences. -/
inductive Segment where
  | plain (c : Char)
  | escape (e : Escape)
  deriving DecidableEq, Repr

namespace Segment

def text : Segment → List Char
  | plain c => [c]
  | escape e => '\\' :: e.tail

/-- The bytes that a segment stands for. -/
def bytes? : Segment → Option (List UInt8)
  | plain c => some (String.utf8EncodeChar c)
  | escape e => e.bytes?

/-- Whether the reader of strings knows the segment. -/
def isKnown : Segment → Bool
  | plain _ => true
  | escape (.letter c) => !(List.contains ['v', 'e', 'f'] c)
  | escape _ => false

/-- What the reader of strings makes of a segment. -/
def read : Segment → List Char
  | plain c => [c]
  | escape (.letter c) => if isKnown (escape (.letter c)) then [Escape.meaning c] else ['\\', c]
  | p => p.text

end Segment

namespace Quote

def mark : Quote → Char
  | single => '\''
  | double => '"'

/-- The letters that mean something after a backslash. -/
def letters : Quote → List Char
  | single => ['\\', '\'']
  | double => ['\\', '"', '$', 'n', 'r', 't', 'v', 'e', 'f']

/-- The escape sequence that a backslash begins, by what follows the backslash. -/
def escape? (q : Quote) : List Char → Option Escape
  | [] => none
  | c :: rest =>
    if c ∈ q.letters then some (.letter c)
    else if q = .double then Escape.ofDigits? c rest
    else none

/-- The escape sequence that stands at the front of a text. -/
def first? (q : Quote) (c : Char) (rest : List Char) : Option Escape :=
  if c = '\\' then q.escape? rest else none

/-- The segments of the text between the marks. -/
def segments (q : Quote) : List Char → List Segment
  | [] => []
  | c :: rest =>
    match q.first? c rest with
    | some e => .escape e :: q.segments (rest.drop e.tail.length)
    | none => .plain c :: q.segments rest
termination_by body => body.length
decreasing_by all_goals simp; try omega

/-- The bytes that the text between the marks stands for. Without a value it belongs to no valid
program. -/
def value? (q : Quote) (body : List Char) : Option (List UInt8) :=
  ((q.segments body).mapM Segment.bytes?).map List.flatten

example : double.value? "\\u\x7b41\x7d\\1011\\X4a\\v\\q".toList =
    some [0x41, 0x41, 0x31, 0x4A, 0x0B, 0x5C, 0x71] := by
  decide +kernel

/-- What the reader of strings makes of the text between the marks. -/
def decode : Quote → List Char → List Char
  | single => Literal.decodeSingle
  | double => Literal.decodeDouble

end Quote

namespace Escape

/-- The letters that the reader of double-quoted strings knows. -/
def knownLetters : List Char :=
  ['\\', '"', '$', 'n', 'r', 't']

/-- What digits after a backslash may make. -/
theorem ofDigits?_cases {c : Char} {rest : List Char} {e : Escape} (h : ofDigits? c rest = some e) :
    (isOctal c = true ∧ e = .octal c ((rest.take 2).takeWhile isOctal)) ∨
    ((c = 'x' ∨ c = 'X') ∧ ∃ d ds, (rest.take 2).takeWhile isHex = d :: ds ∧ e = .hex c d ds) ∨
    (c = 'u' ∧ ∃ more, rest = '{' :: more ∧
      ((∃ d ds after, more.takeWhile isHex = d :: ds ∧ more.dropWhile isHex = '}' :: after ∧
        e = .codePoint d ds) ∨ e = .broken)) := by
  rw [ofDigits?] at h
  split at h
  case isTrue hc =>
    cases h
    exact .inl ⟨hc, rfl⟩
  case isFalse =>
    split at h
    case isTrue hx =>
      split at h
      case h_1 d ds hds =>
        cases h
        exact .inr (.inl ⟨hx, d, ds, hds, rfl⟩)
      case h_2 => cases h
    case isFalse =>
      split at h
      case isTrue hu =>
        obtain ⟨more, rfl⟩ : ∃ more, rest = '{' :: more := List.head?_eq_some_iff.1 hu.2
        refine .inr (.inr ⟨hu.1, more, rfl, ?_⟩)
        split at h
        case h_1 d ds after hds hafter =>
          cases h
          exact .inl ⟨d, ds, after, hds, hafter, rfl⟩
        case h_2 =>
          cases h
          exact .inr rfl
      case isFalse => cases h

section Digits

variable {c : Char} {rest : List Char} {e : Escape}

theorem tail_prefix_of_ofDigits? (h : ofDigits? c rest = some e) : e.tail <+: c :: rest := by
  have hdigits (p : Char → Bool) : (rest.take 2).takeWhile p <+: rest :=
    (List.takeWhile_prefix p).trans (List.take_prefix 2 rest)
  rcases ofDigits?_cases h with
    ⟨_, rfl⟩ | ⟨_, d, ds, hds, rfl⟩ | ⟨rfl, more, rfl, ⟨d, ds, after, hds, hafter, rfl⟩ | rfl⟩
  · exact List.cons_prefix_cons.2 ⟨rfl, hdigits isOctal⟩
  · exact List.cons_prefix_cons.2 ⟨rfl, hds ▸ hdigits isHex⟩
  · refine ⟨after, ?_⟩
    have hmore : more = d :: ds ++ '}' :: after := by
      rw [← hds, ← hafter, List.takeWhile_append_dropWhile]
    simp [tail, hmore]
  · exact ⟨more, rfl⟩

theorem not_mem_knownLetters {p : Char → Bool} (hp : knownLetters.any p = false) {c : Char}
    (h : p c = true) : c ∉ knownLetters :=
  fun hc => List.any_eq_false.1 hp c hc h

theorem not_mem_knownLetters_of_takeWhile {p : Char → Bool}
    (hp : knownLetters.any p = false) (cs : List Char) :
    ∀ c ∈ cs.takeWhile p, c ∉ knownLetters := by
  intro c hc
  have hall : (cs.takeWhile p).all p = true := List.all_takeWhile
  exact not_mem_knownLetters hp (List.all_eq_true.1 hall c hc)

/-- An escape sequence of digits is made of characters without a meaning to the reader. -/
theorem not_mem_knownLetters_of_ofDigits? (h : ofDigits? c rest = some e) :
    ∀ x ∈ e.tail, x ∉ knownLetters := by
  have hoctal : knownLetters.any isOctal = false := by decide
  have hhex : knownLetters.any isHex = false := by decide
  rcases ofDigits?_cases h with
    ⟨hc, rfl⟩ | ⟨hx, d, ds, hds, rfl⟩ | ⟨_, more, _, ⟨d, ds, after, hds, _, rfl⟩ | rfl⟩
  · exact List.forall_mem_cons.2
      ⟨not_mem_knownLetters hoctal hc, not_mem_knownLetters_of_takeWhile hoctal _⟩
  · have hc : c ∉ knownLetters := by rcases hx with rfl | rfl <;> decide
    exact List.forall_mem_cons.2 ⟨hc, hds ▸ not_mem_knownLetters_of_takeWhile hhex _⟩
  · have hdigits : ∀ x ∈ d :: ds, x ∉ knownLetters :=
      hds ▸ not_mem_knownLetters_of_takeWhile hhex _
    intro x hx
    simp only [tail, List.cons_append, List.mem_cons, List.mem_append, List.not_mem_nil,
      or_false] at hx
    rcases hx with rfl | rfl | rfl | hx | rfl
    · decide
    · decide
    · exact hdigits _ List.mem_cons_self
    · exact hdigits x (List.mem_cons_of_mem _ hx)
    · decide
  · simp only [tail, List.forall_mem_cons, List.not_mem_nil, IsEmpty.forall_iff, implies_true]
    decide

theorem mem_tail_of_ofDigits? (h : ofDigits? c rest = some e) : c ∈ e.tail := by
  have hprefix := tail_prefix_of_ofDigits? h
  cases e with
  | broken =>
    rw [(List.cons_prefix_cons.1 hprefix).1.symm]
    exact List.mem_cons_self
  | _ =>
    rw [(List.cons_prefix_cons.1 hprefix).1.symm]
    exact List.mem_cons_self

theorem read_of_ofDigits? (h : ofDigits? c rest = some e) :
    (Segment.escape e).read = '\\' :: e.tail := by
  rcases ofDigits?_cases h with
    ⟨_, rfl⟩ | ⟨_, d, ds, _, rfl⟩ | ⟨_, more, _, ⟨d, ds, after, _, _, rfl⟩ | rfl⟩ <;> rfl

end Digits

end Escape

namespace Quote

variable {q : Quote} {body : List Char}

theorem tail_prefix_of_escape? {e : Escape} (h : q.escape? body = some e) : e.tail <+: body := by
  cases body with
  | nil => cases h
  | cons c rest =>
    rw [escape?] at h
    split at h
    case isTrue =>
      cases h
      exact List.cons_prefix_cons.2 ⟨rfl, List.nil_prefix⟩
    case isFalse =>
      split at h
      case isTrue => exact Escape.tail_prefix_of_ofDigits? h
      case isFalse => cases h

theorem first?_eq_some {c : Char} {rest : List Char} {e : Escape} (h : q.first? c rest = some e) :
    c = '\\' ∧ q.escape? rest = some e := by
  rw [first?] at h
  split at h
  case isTrue hc => exact ⟨hc, h⟩
  case isFalse => cases h

theorem first?_eq_none {c : Char} {rest : List Char} (h : q.first? c rest = none) :
    c ≠ '\\' ∨ c = '\\' ∧ q.escape? rest = none := by
  rw [first?] at h
  split at h
  case isTrue hc => exact .inr ⟨hc, h⟩
  case isFalse hc => exact .inl hc

theorem append_drop_of_escape? {e : Escape} (h : q.escape? body = some e) :
    e.tail ++ body.drop e.tail.length = body :=
  List.prefix_iff_eq_append.1 (tail_prefix_of_escape? h)

theorem decodeDouble_of_ne {c : Char} {rest : List Char} (h : c ≠ '\\') :
    Literal.decodeDouble (c :: rest) = c :: Literal.decodeDouble rest := by
  rw [Literal.decodeDouble] <;> simp [h]

theorem decodeDouble_unknown {c : Char} {rest : List Char} (h : c ∉ Escape.knownLetters) :
    Literal.decodeDouble ('\\' :: c :: rest) = '\\' :: Literal.decodeDouble (c :: rest) := by
  rw [Literal.decodeDouble] <;> simp_all [Escape.knownLetters]

theorem decodeDouble_append {cs : List Char} (h : ∀ c ∈ cs, c ∉ Escape.knownLetters)
    (rest : List Char) : Literal.decodeDouble (cs ++ rest) = cs ++ Literal.decodeDouble rest := by
  induction cs with
  | nil => rfl
  | cons c cs ih =>
    have hc : c ≠ '\\' := by
      rintro rfl
      exact absurd (h _ List.mem_cons_self) (by decide)
    rw [List.cons_append, decodeDouble_of_ne hc, ih fun d hd => h d (List.mem_cons_of_mem c hd)]
    rfl

theorem decode_letter {c : Char} (h : c ∈ q.letters) (rest : List Char) :
    q.decode ('\\' :: c :: rest) = (Segment.escape (.letter c)).read ++ q.decode rest := by
  cases q <;> simp only [letters, List.mem_cons, List.not_mem_nil, or_false] at h
  case single => rcases h with rfl | rfl <;> rfl
  case double => rcases h with rfl | rfl | rfl | rfl | rfl | rfl | rfl | rfl | rfl <;> rfl

theorem decode_escape {e : Escape} (h : q.escape? body = some e) :
    q.decode ('\\' :: body) = (Segment.escape e).read ++ q.decode (body.drop e.tail.length) := by
  have hbody := append_drop_of_escape? h
  cases body with
  | nil => cases h
  | cons c rest =>
    rw [escape?] at h
    split at h
    case isTrue hletter =>
      cases h
      exact decode_letter hletter rest
    case isFalse =>
      split at h
      case isTrue hq =>
        subst hq
        have hunknown := Escape.not_mem_knownLetters_of_ofDigits? h
        have hc : c ∉ Escape.knownLetters := hunknown c (Escape.mem_tail_of_ofDigits? h)
        rw [Escape.read_of_ofDigits? h, decode, decodeDouble_unknown hc]
        nth_rewrite 1 [← hbody]
        rw [decodeDouble_append hunknown, List.cons_append]
      case isFalse => cases h

theorem decode_stray (h : q.escape? body = none) :
    q.decode ('\\' :: body) = '\\' :: q.decode body := by
  cases body with
  | nil => cases q <;> rfl
  | cons c rest =>
    rw [escape?] at h
    split at h
    case isTrue => cases h
    case isFalse hnone =>
      cases q with
      | single => rw [decode, Literal.decodeSingle] <;> simp_all [letters]
      | double =>
        apply decodeDouble_unknown
        simp_all [letters, Escape.knownLetters]

theorem decode_plain {c : Char} (hc : c ≠ '\\') (rest : List Char) :
    q.decode (c :: rest) = c :: q.decode rest := by
  cases q with
  | single => rw [decode, Literal.decodeSingle] <;> simp [hc]
  | double => exact decodeDouble_of_ne hc

/-- The reader of strings goes along the segments. -/
theorem decode_eq (q : Quote) (body : List Char) :
    q.decode body = (q.segments body).flatMap Segment.read := by
  fun_induction segments q body
  case case1 => cases q <;> rfl
  case case2 c rest e he ih =>
    obtain ⟨rfl, he⟩ := first?_eq_some he
    rw [decode_escape he, ih, List.flatMap_cons]
  case case3 c rest hnone ih =>
    rw [List.flatMap_cons, ← ih]
    rcases first?_eq_none hnone with hc | ⟨rfl, hstray⟩
    · exact decode_plain hc rest
    · exact decode_stray hstray

end Quote

namespace Segment

theorem length_codePointBytes_le (n : Nat) : (codePointBytes n).length ≤ 4 := by
  unfold codePointBytes
  split_ifs <;> simp

theorem length_le_length_bytes (cs : List Char) :
    cs.length ≤ (cs.flatMap String.utf8EncodeChar).length := by
  induction cs with
  | nil => exact Nat.zero_le _
  | cons c cs ih =>
    have hpos := c.utf8Size_pos
    rw [List.flatMap_cons, List.length_append, String.length_utf8EncodeChar, List.length_cons]
    omega

variable {p : Segment} {bytes : List UInt8}

theorem bytes?_of_isKnown (h : p.isKnown = true) :
    p.bytes? = some (p.read.flatMap String.utf8EncodeChar) := by
  cases p with
  | plain c => simp [bytes?, read]
  | escape e =>
    cases e with
    | letter c => simp [bytes?, read, h, Escape.bytes?]
    | _ => cases h

/-- What the reader does not know it leaves as it is written, and that is longer than the bytes it
stands for. -/
theorem length_lt_of_not_isKnown (h : p.isKnown = false) (hbytes : p.bytes? = some bytes) :
    bytes.length < (p.read.flatMap String.utf8EncodeChar).length := by
  refine Nat.lt_of_lt_of_le ?_ (length_le_length_bytes p.read)
  cases p with
  | plain c => cases h
  | escape e =>
    cases e with
    | letter c =>
      have hc : c ∈ ['v', 'e', 'f'] := by
        simpa only [isKnown, Bool.not_eq_false', List.contains_iff_mem] using h
      simp only [List.mem_cons, List.not_mem_nil, or_false] at hc
      cases hbytes
      rcases hc with rfl | rfl | rfl <;> decide
    | octal d ds =>
      cases hbytes
      simp [read, text, Escape.tail]
    | hex x d ds =>
      cases hbytes
      simp [read, text, Escape.tail]
    | codePoint d ds =>
      rw [bytes?, Escape.bytes?, Option.ite_none_right_eq_some] at hbytes
      have hlength := length_codePointBytes_le (numeral 16 (d :: ds))
      cases hbytes.2
      simp only [read, text, Escape.tail, List.cons_append, List.length_cons, List.length_append,
        List.length_nil]
      omega
    | broken => cases hbytes

/-- The bytes of what the reader makes of a segment. -/
def readBytes (p : Segment) : List UInt8 :=
  p.read.flatMap String.utf8EncodeChar

theorem length_le_of_bytes? (h : p.bytes? = some bytes) : bytes.length ≤ p.readBytes.length := by
  cases hknown : p.isKnown with
  | true =>
    rw [bytes?_of_isKnown hknown] at h
    cases h
    exact Nat.le_refl _
  | false => exact Nat.le_of_lt (length_lt_of_not_isKnown hknown h)

theorem mapM_bytes?_cons {ps : List Segment} {chunks : List (List UInt8)}
    (h : (p :: ps).mapM bytes? = some chunks) :
    ∃ first more, p.bytes? = some first ∧ ps.mapM bytes? = some more ∧ chunks = first :: more := by
  rw [List.mapM_cons] at h
  obtain ⟨first, hfirst, h⟩ := Option.bind_eq_some_iff.1 h
  obtain ⟨more, hmore, h⟩ := Option.bind_eq_some_iff.1 h
  cases h
  exact ⟨first, more, hfirst, hmore, rfl⟩

theorem length_flatten_le {ps : List Segment} {chunks : List (List UInt8)}
    (h : ps.mapM bytes? = some chunks) : chunks.flatten.length ≤ (ps.flatMap readBytes).length := by
  induction ps generalizing chunks with
  | nil =>
    cases h
    exact Nat.le_refl _
  | cons p ps ih =>
    obtain ⟨first, more, hfirst, hmore, rfl⟩ := mapM_bytes?_cons h
    rw [List.flatten_cons, List.flatMap_cons, List.length_append, List.length_append]
    exact Nat.add_le_add (length_le_of_bytes? hfirst) (ih hmore)

/-- Segments are read as the bytes that they stand for exactly when all of them are known. -/
theorem flatten_eq_iff {ps : List Segment} {chunks : List (List UInt8)}
    (h : ps.mapM bytes? = some chunks) :
    ps.flatMap readBytes = chunks.flatten ↔ ∀ p ∈ ps, p.isKnown = true := by
  induction ps generalizing chunks with
  | nil =>
    cases h
    simp
  | cons p ps ih =>
    obtain ⟨first, more, hfirst, hmore, rfl⟩ := mapM_bytes?_cons h
    rw [List.flatten_cons, List.flatMap_cons, List.forall_mem_cons]
    cases hknown : p.isKnown with
    | true =>
      have hread : first = p.readBytes :=
        Option.some.inj (hfirst.symm.trans (bytes?_of_isKnown hknown))
      rw [hread, List.append_cancel_left_eq, ih hmore]
      simp
    | false =>
      have hshort : first.length < p.readBytes.length := length_lt_of_not_isKnown hknown hfirst
      have hmost := length_flatten_le hmore
      refine iff_of_false (fun heq => ?_) (by simp)
      have hlength := congrArg List.length heq
      rw [List.length_append, List.length_append] at hlength
      omega

end Segment

namespace Quote

variable {q : Quote} {body : List Char}

theorem isKnown_of_escape?_single {e : Escape} (h : single.escape? body = some e) :
    (Segment.escape e).isKnown = true := by
  cases body with
  | nil => cases h
  | cons c rest =>
    rw [escape?] at h
    split at h
    case isTrue hc =>
      cases h
      simp only [letters, List.mem_cons, List.not_mem_nil, or_false] at hc
      rcases hc with rfl | rfl <;> rfl
    case isFalse => cases h

/-- Between single quotes the reader knows all that a backslash begins. -/
theorem isKnown_of_single {p : Segment} (h : p ∈ single.segments body) : p.isKnown = true := by
  fun_induction segments single body
  case case1 => cases h
  case case2 c rest e he ih =>
    rcases List.mem_cons.1 h with rfl | h
    · exact isKnown_of_escape?_single (first?_eq_some he).2
    · exact ih h
  case case3 c rest _ ih =>
    rcases List.mem_cons.1 h with rfl | h
    · rfl
    · exact ih h

end Quote

/-- A string between quotes, with an optional `b` in front. -/
structure Node.IsQuoted (n : Node) (q : Quote) (body : List Char) : Prop where
  kind : n.kind = match q with
    | .single => .string
    | .double => .encapsedString
  text : ∃ mark ∈ [[], ['b'], ['B']], n.text.toList = mark ++ q.mark :: (body ++ [q.mark])

theorem unquote_of_quoted {q : Quote} {raw : String} {mark body : List Char}
    (hmark : mark ∈ [[], ['b'], ['B']]) (hraw : raw.toList = mark ++ q.mark :: (body ++ [q.mark])) :
    Literal.unquote raw = some (String.ofList (q.decode body)) := by
  obtain ⟨next, rest, hnext⟩ : ∃ next rest, body ++ [q.mark] = next :: rest := by
    cases body <;> exact ⟨_, _, rfl⟩
  have hbody : (next :: rest).dropLast = body := by rw [← hnext, List.dropLast_concat]
  have hquoted : Literal.unquote raw = some (String.ofList
      (if q.mark == '\'' then Literal.decodeSingle body else Literal.decodeDouble body)) := by
    simp only [List.mem_cons, List.not_mem_nil, or_false] at hmark
    rw [Literal.unquote, hraw, hnext]
    rcases hmark with rfl | rfl | rfl <;> cases q <;> simp [Quote.mark, hbody]
  rw [hquoted]
  cases q <;> rfl

theorem Node.IsQuoted.literal? {n : Node} {q : Quote} {body : List Char} {v : String}
    (hn : n.IsQuoted q body) (hv : n.literal? = some v) : v = String.ofList (q.decode body) := by
  obtain ⟨mark, hmark, htext⟩ := hn.text
  have hread := unquote_of_quoted hmark htext
  have hkind := hn.kind
  have hu : n.unwrap = n := unwrap_of_kind (by rw [hkind]; cases q <;> decide)
  rw [Node.literal?, hu] at hv
  cases q with
  | single =>
    rw [show n.kind = .string from hkind] at hv
    exact Option.some.inj (hv.symm.trans hread)
  | double =>
    simp only [show n.kind = .encapsedString from hkind] at hv
    rw [Option.ite_none_right_eq_some] at hv
    exact Option.some.inj (hv.2.symm.trans hread)

theorem toUTF8_ofList (cs : List Char) :
    (String.ofList cs).toUTF8 = (cs.flatMap String.utf8EncodeChar).toByteArray :=
  rfl

/-- A string between quotes is read as the bytes that it stands for exactly when the reader knows
all its escape sequences. Between single quotes it knows all there are. -/
theorem literal?_eq_value_iff {n : Node} {q : Quote} {body : List Char} {v : String}
    {value : List UInt8} (hn : n.IsQuoted q body) (hv : n.literal? = some v)
    (hvalue : q.value? body = some value) :
    (v.toUTF8 = value.toByteArray ↔ ∀ p ∈ q.segments body, p.isKnown = true) ∧
    (q = .single → v.toUTF8 = value.toByteArray) := by
  obtain ⟨chunks, hchunks, rfl⟩ := Option.map_eq_some_iff.1 hvalue
  have hread : v.toUTF8 = ((q.segments body).flatMap Segment.readBytes).toByteArray := by
    rw [hn.literal? hv, toUTF8_ofList, Quote.decode_eq, List.flatMap_assoc]
    rfl
  have hiff : v.toUTF8 = chunks.flatten.toByteArray ↔ ∀ p ∈ q.segments body, p.isKnown = true := by
    rw [hread, List.toByteArray_inj]
    exact Segment.flatten_eq_iff hchunks
  refine ⟨hiff, ?_⟩
  rintro rfl
  exact hiff.2 fun p hp => Quote.isKnown_of_single hp

/-- A node of a string in double quotes at the byte 6 of a source. -/
def doubleQuoted (body : String) : Node :=
  .mk .encapsedString none 6 (8 + body.length) 1 ("\"" ++ body ++ "\"") [
    .mk .token none 6 7 1 "\"" [],
    .mk .stringContent none 7 (7 + body.length) 1 body [],
    .mk .token none (7 + body.length) (8 + body.length) 1 "\"" []]

theorem isQuoted_doubleQuoted (body : String) :
    (doubleQuoted body).IsQuoted .double body.toList :=
  ⟨rfl, [], by simp, by simp [doubleQuoted, Node.text, Quote.mark]⟩

theorem known_escapes_read :
    let n := doubleQuoted "\\$a\\t\\\\n"
    n.IsQuoted .double "\\$a\\t\\\\n".toList ∧ n.literal? = some "$a\t\\n" ∧
    Quote.double.value? "\\$a\\t\\\\n".toList = some "$a\t\\n".toUTF8.data.toList ∧
    "$a\t\\n".toUTF8 = "$a\t\\n".toUTF8.data.toList.toByteArray := by
  intro n
  have hn : n.IsQuoted .double "\\$a\\t\\\\n".toList := isQuoted_doubleQuoted _
  have hv : n.literal? = some "$a\t\\n" := by decide
  have hvalue : Quote.double.value? "\\$a\\t\\\\n".toList =
      some "$a\t\\n".toUTF8.data.toList := by
    decide +kernel
  have hknown : ∀ p ∈ Quote.double.segments "\\$a\\t\\\\n".toList, p.isKnown = true := by
    decide +kernel
  exact ⟨hn, hv, hvalue, (literal?_eq_value_iff hn hv hvalue).1.2 hknown⟩

/-- A forbidden name that is written with an escape sequence of digits is read as it is written. -/
theorem disguised_name_misread :
    let n := doubleQuoted "\\x73ystem"
    n.IsQuoted .double "\\x73ystem".toList ∧ n.literal? = some "\\x73ystem" ∧
    Quote.double.value? "\\x73ystem".toList = some "system".toUTF8.data.toList ∧
    "\\x73ystem".toUTF8 ≠ "system".toUTF8 := by
  intro n
  have hvalue : Quote.double.value? "\\x73ystem".toList = some "system".toUTF8.data.toList := by
    decide +kernel
  exact ⟨isQuoted_doubleQuoted _, by decide, hvalue, by decide⟩

end PluginAudit.Php
