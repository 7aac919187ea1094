namespace PluginAudit.Text

/-- Why bytes are no UTF-8. -/
inductive Utf8Fault where
  | invalidStart
  | invalidContinuation
  | unexpectedEnd
  deriving DecidableEq, Repr

/-- The first character of some bytes, or the number of bytes that the fault covers. -/
inductive Utf8Step where
  | char (c : Char) (size : Nat)
  | fault (why : Utf8Fault) (size : Nat)
  deriving Repr

/-- Whether `b` continues a character. -/
def isContinuation (b : UInt8) : Bool :=
  0x80 ≤ b && b < 0xC0

/-- Whether `b` may follow the lead byte `a` of a character of three or four bytes. -/
def mayFollow (a b : UInt8) : Bool :=
  isContinuation b &&
    !(a == 0xE0 && b < 0xA0) && !(a == 0xED && b ≥ 0xA0) &&
    !(a == 0xF0 && b < 0x90) && !(a == 0xF4 && b ≥ 0x90)

def codePoint (bits : List UInt8) : Char :=
  Char.ofNat (bits.foldl (fun n b => n * 64 + b.toNat) 0)

/-- Reads the character at the head of non-empty bytes. -/
def utf8Step (a : UInt8) (rest : List UInt8) : Utf8Step :=
  if a < 0x80 then .char (Char.ofNat a.toNat) 1
  else if a < 0xC2 then .fault .invalidStart 1
  else if a < 0xE0 then
    match rest with
    | [] => .fault .unexpectedEnd 1
    | b :: _ =>
      if isContinuation b then .char (codePoint [a - 0xC0, b - 0x80]) 2
      else .fault .invalidContinuation 1
  else if a < 0xF0 then
    match rest with
    | [] => .fault .unexpectedEnd 1
    | b :: rest =>
      if !mayFollow a b then .fault .invalidContinuation 1
      else match rest with
        | [] => .fault .unexpectedEnd 2
        | c :: _ =>
          if isContinuation c then .char (codePoint [a - 0xE0, b - 0x80, c - 0x80]) 3
          else .fault .invalidContinuation 2
  else if a < 0xF5 then
    match rest with
    | [] => .fault .unexpectedEnd 1
    | b :: rest =>
      if !mayFollow a b then .fault .invalidContinuation 1
      else match rest with
        | [] => .fault .unexpectedEnd 2
        | c :: rest =>
          if !isContinuation c then .fault .invalidContinuation 2
          else match rest with
            | [] => .fault .unexpectedEnd 3
            | d :: _ =>
              if isContinuation d then
                .char (codePoint [a - 0xF0, b - 0x80, c - 0x80, d - 0x80]) 4
              else .fault .invalidContinuation 3
  else .fault .invalidStart 1

/-- Decodes bytes, putting `onFault` for each fault; `skip` bytes belong to the last step. -/
def decodeFrom (onFault acc : List Char) : Nat → List UInt8 → List Char
  | _, [] => acc.reverse
  | skip + 1, _ :: rest => decodeFrom onFault acc skip rest
  | 0, a :: rest =>
    match utf8Step a rest with
    | .char c size => decodeFrom onFault (c :: acc) (size - 1) rest
    | .fault _ size => decodeFrom onFault (onFault ++ acc) (size - 1) rest

/-- The text of bytes, each fault shown as U+FFFD. -/
def decodeReplacing (bytes : ByteArray) : String :=
  (String.fromUTF8? bytes).getD (String.ofList (decodeFrom ['\uFFFD'] [] 0 bytes.toList))

/-- The text of bytes without the faulty ones. -/
def decodeIgnoring (bytes : ByteArray) : String :=
  (String.fromUTF8? bytes).getD (String.ofList (decodeFrom [] [] 0 bytes.toList))

/-- The first fault of bytes: its position, its size, its first byte and its cause. -/
structure Utf8Error where
  position : Nat
  size : Nat
  byte : UInt8
  why : Utf8Fault
  deriving Repr

/-- Finds the first fault from position `pos` on. -/
def firstFault (pos : Nat) : Nat → List UInt8 → Option Utf8Error
  | _, [] => none
  | skip + 1, _ :: rest => firstFault (pos + 1) skip rest
  | 0, a :: rest =>
    match utf8Step a rest with
    | .char _ size => firstFault (pos + 1) (size - 1) rest
    | .fault why size => some ⟨pos, size, a, why⟩

/-- The text of bytes that are UTF-8 throughout. -/
def decodeStrict (bytes : ByteArray) : Except Utf8Error String :=
  match String.fromUTF8? bytes with
  | some s => .ok s
  | none =>
    match firstFault 0 0 bytes.toList with
    | some e => .error e
    | none => .ok (String.ofList (decodeFrom [] [] 0 bytes.toList))

def Utf8Fault.message : Utf8Fault → String
  | .invalidStart => "invalid start byte"
  | .invalidContinuation => "invalid continuation byte"
  | .unexpectedEnd => "unexpected end of data"

/-- Two hexadecimal digits of a byte. -/
def hexByte (b : UInt8) : String :=
  String.ofList [Nat.digitChar (b.toNat / 16), Nat.digitChar (b.toNat % 16)]

def Utf8Error.message (e : Utf8Error) : String :=
  let place :=
    if e.size == 1 then s!"byte 0x{hexByte e.byte} in position {e.position}"
    else s!"bytes in position {e.position}-{e.position + e.size - 1}"
  s!"'utf-8' codec can't decode {place}: {e.why.message}"

end PluginAudit.Text
