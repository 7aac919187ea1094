import PluginAudit.Text.Parts

namespace PluginAudit.Package.IpNetwork

open Text

/-- The number of a non-empty text of ASCII digits. -/
def decimal? (s : String) : Option Nat :=
  let cs := s.toList
  if !cs.isEmpty && cs.all Char.isDigit then
    some (cs.foldl (fun n c => n * 10 + (c.toNat - 48)) 0)
  else none

/-- A number up to 255, of at most three digits and without leading zeros. -/
def octet? (s : String) : Option Nat :=
  if 3 < s.length || (s != "0" && s.toList.head? == some '0') then none
  else (decimal? s).filter (· ≤ 255)

/-- Four octets with dots between them. -/
def address4? (s : String) : Option Nat :=
  match (splitBy (· == '.') s).map octet? with
  | [some a, some b, some c, some d] => some (((a * 256 + b) * 256 + c) * 256 + d)
  | _ => none

/-- The length of a mask, up to the given one. -/
def isLength (most : Nat) (s : String) : Bool :=
  (decimal? s).any (· ≤ most)

/-- The address of 32 ones. -/
def allOnes : Nat := 0xffffffff

/-- Whether 32 bits are ones followed by zeros. -/
def isOnesThenZeros (n : Nat) : Bool :=
  (List.range 33).any fun k => n == allOnes - (Nat.pow 2 k - 1)

/-- A length, or an address that is a mask of the network or of the hosts in it. -/
def isMask4 (s : String) : Bool :=
  isLength 32 s ||
    (address4? s).any fun n => isOnesThenZeros n || isOnesThenZeros (allOnes - n)

/-- One to four hexadecimal digits. -/
def isHextet (s : String) : Bool :=
  let cs := s.toList
  !cs.isEmpty && cs.length ≤ 4 && cs.all fun c =>
    c.isDigit || ('a' ≤ c && c ≤ 'f') || ('A' ≤ c && c ≤ 'F')

/-- The parts of an address, with the last two taken from four octets if it ends in them. -/
def parts6? (s : String) : Option (List String) :=
  let parts := splitBy (· == ':') s
  let last := parts.getLastD ""
  if parts.length < 3 then none
  else if last.any (· == '.') then
    if (address4? last).isSome then some (parts.dropLast ++ ["0", "0"]) else none
  else some parts

/-- Eight parts, or fewer with one run of zeros left out between two colons. -/
def areParts6 (parts : List String) : Bool :=
  let inner := parts.tail.dropLast
  match inner.count "" with
  | 0 => parts.length == 8 && parts.all isHextet
  | 1 =>
    let front := parts.takeWhile (· != "")
    let high := if parts.head? == some "" then [] else front
    let skip := if parts.head? == some "" then 1 else front.length
    let low := parts.drop (skip + 1)
    -- A colon at an end stands only beside the run.
    let highOk := parts.head? != some "" || (parts.drop 1).head? == some ""
    let lowOk := low.getLastD "0" != "" || low.length == 1
    let low := if low == [""] then [] else low
    highOk && lowOk && high.length + low.length < 8 && high.all isHextet && low.all isHextet
  | _ => false

def isAddress6 (s : String) : Bool :=
  match splitBy (· == '%') s with
  | [address] => ok address
  | [address, zone] => zone != "" && ok address
  | _ => false
where
  ok (address : String) : Bool :=
    (parts6? address).any fun parts => parts.length ≤ 9 && areParts6 parts

/-- Whether a text is a network. -/
def isNetwork (s : String) : Bool :=
  match splitBy (· == '/') s with
  | [address] => (address4? address).isSome || isAddress6 address
  | [address, mask] =>
    ((address4? address).isSome && isMask4 mask) || (isAddress6 address && isLength 128 mask)
  | _ => false

end PluginAudit.Package.IpNetwork
