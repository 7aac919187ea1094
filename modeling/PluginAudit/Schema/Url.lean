import PluginAudit.Fault
import PluginAudit.Package.IpNetwork
import PluginAudit.Text.Parts

namespace PluginAudit.Schema

structure Url where
  scheme : String
  site : String
  path : String
  query : String
  fragment : String

namespace Url

def isSchemeChar (c : Char) : Bool :=
  c.isAlphanum || c == '+' || c == '-' || c == '.'

/-- The scheme before the first colon, in lower case, and what follows; what is no scheme stays. -/
def splitScheme (s : String) : String × String :=
  match Text.cutAt? ":" s with
  | some (head, rest) =>
    if head.toList.head?.any Char.isAlpha && head.all isSchemeChar then
      (head.map Char.toLower, rest)
    else ("", s)
  | none => ("", s)

def endsSite (c : Char) : Bool :=
  c == '/' || c == '?' || c == '#'

/-- The site after two slashes, and what follows. -/
def splitSite (s : String) : String × String :=
  match Text.afterHead? s "//" with
  | some rest =>
    let site := rest.toList.takeWhile fun c => !endsSite c
    (String.ofList site, Text.dropChars site.length rest)
  | none => ("", s)

/-- The text before the first mark and the text after it, which is empty without a mark. -/
def splitAt (mark s : String) : String × String :=
  (Text.cutAt? mark s).getD (s, "")

/-- The parts of a URL. Blanks before it count for nothing, nor do tabs and line breaks inside. -/
def ofText (s : String) : Url :=
  let s := String.ofList (s.toList.dropWhile fun c => c.toNat ≤ 0x20)
  let s := String.ofList (s.toList.filter fun c => c != '\t' && c != '\r' && c != '\n')
  let (scheme, s) := splitScheme s
  let (site, s) := splitSite s
  let (s, fragment) := splitAt "#" s
  let (path, query) := splitAt "?" s
  ⟨scheme, site, path, query, fragment⟩

def isHexDigit (c : Char) : Bool :=
  c.isDigit || ('a' ≤ c && c ≤ 'f') || ('A' ≤ c && c ≤ 'F')

/-- A `v`, hexadecimal digits, a dot and something after it. -/
def isFutureAddress (host : String) : Bool :=
  let cs := host.toList.drop 1
  match cs.dropWhile isHexDigit with
  | '.' :: _ :: _ => cs.head?.any isHexDigit
  | _ => false

/-- What is wrong with a host in brackets. -/
def hostFlaw? (host : String) : Option String :=
  if Text.startsWith host "v" then
    if isFutureAddress host then none else some "IPvFuture address is invalid"
  else if (Package.IpNetwork.address4? host).isSome then
    some "An IPv4 address cannot be in brackets"
  else if Package.IpNetwork.isAddress6 host then none
  else some s!"{Text.quoted host} does not appear to be an IPv4 or IPv6 address"

/-- Characters that stand for texts with a delimiter of URLs in them. -/
def delimiterLike : List Nat :=
  [0x2047, 0x2048, 0x2049, 0x2100, 0x2101, 0x2105, 0x2106, 0x2a74, 0xfe13, 0xfe16, 0xfe55, 0xfe56,
    0xfe5f, 0xfe6b, 0xff03, 0xff0f, 0xff1a, 0xff1f, 0xff20]

/-- What is wrong with a site. -/
def siteFlaw? (site : String) : Option String :=
  let bracketFlaw :=
    match Text.cutAt? "[" site, Text.contains site "]" with
    | some (_, rest), true => hostFlaw? (splitAt "]" rest).1
    | none, false => none
    | _, _ => some "Invalid IPv6 URL"
  bracketFlaw.or <|
    if site.any fun c => delimiterLike.contains c.toNat then
      some s!"netloc '{site}' contains invalid characters under NFKC normalization"
    else none

/-- The schemes whose URLs have a site, be it empty. -/
def sited : List String :=
  ["ftp", "http", "gopher", "nntp", "telnet", "imap", "wais", "file", "mms", "https", "shttp",
    "snews", "prospero", "rtsp", "rtsps", "rtspu", "rsync", "svn", "svn+ssh", "sftp", "nfs", "git",
    "git+ssh", "ws", "wss"]

/-- The URL as a text, without empty parts. -/
def toText (u : Url) : String :=
  let path :=
    if u.site != "" || sited.contains u.scheme || Text.startsWith u.path "//" then
      let slash := if u.path == "" || Text.startsWith u.path "/" then "" else "/"
      "//" ++ u.site ++ slash ++ u.path
    else u.path
  let before (mark part : String) := if part == "" then "" else mark ++ part
  (if u.scheme == "" then "" else u.scheme ++ ":") ++ path ++ before "?" u.query ++
    before "#" u.fragment

/-- The normal form of a URL, if its site is in order. -/
def normal (s : String) : Except Fault String :=
  let u := ofText s
  match siteFlaw? u.site with
  | some flaw => .error (.raised "ValueError" flaw)
  | none => .ok u.toText

end Url

end PluginAudit.Schema
