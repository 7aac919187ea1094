import PluginAudit.Text.Ranges

namespace PluginAudit.Text

/-- Ranges of the characters that count as white space, control separators included. -/
def blankRanges : Array (Nat × Nat) := #[
  (9, 13), (28, 32), (133, 133), (160, 160), (5760, 5760), (8192, 8202), (8232, 8233),
  (8239, 8239), (8287, 8287), (12288, 12288)]

def isBlank (c : Char) : Bool :=
  inRanges blankRanges c.toNat

/-- The list without its longest tail of characters that satisfy `p`. -/
def dropEndWhile (p : Char → Bool) (cs : List Char) : List Char :=
  (cs.reverse.dropWhile p).reverse

/-- The text without the leading characters that satisfy `p`. -/
def trimLeft (p : Char → Bool) (s : String) : String :=
  String.ofList (s.toList.dropWhile p)

/-- The text without the trailing characters that satisfy `p`. -/
def trimRight (p : Char → Bool) (s : String) : String :=
  String.ofList (dropEndWhile p s.toList)

/-- The text without the characters at either end that satisfy `p`. -/
def trim (p : Char → Bool) (s : String) : String :=
  String.ofList (dropEndWhile p (s.toList.dropWhile p))

/-- The text without the white space around it. -/
def strip (s : String) : String :=
  trim isBlank s

/-- The text without the backslashes around it. -/
def trimBackslashes (s : String) : String :=
  trim (· == '\\') s

end PluginAudit.Text
