import BuildEngine.Text.CodePoints

/-!
The characters of markup: which ones may stand in a document at all, which ones are space between
its parts, and which ones make up names.
-/

namespace BuildEngine.Markup

open BuildEngine.Text

/-- Whether a character may stand in a document. -/
def isLegal (c : Char) : Bool :=
  let n := c.toNat
  n == 9 || n == 10 || n == 13 || (0x20 ≤ n && n ≤ 0xd7ff) || (0xe000 ≤ n && n ≤ 0xfffd) ||
    0x10000 ≤ n

/-- Whether a character is space between the parts of a document. -/
def isSpace (c : Char) : Bool := c == ' ' || c == '\t' || c == '\n' || c == '\r'

/-- The characters with which names start, the colon apart. -/
def nameStarts : CodePoints := [
  (0x41, 0x5a), (0x5f, 0x5f), (0x61, 0x7a), (0xc0, 0xd6), (0xd8, 0xf6), (0xf8, 0x2ff),
  (0x370, 0x37d), (0x37f, 0x1fff), (0x200c, 0x200d), (0x2070, 0x218f), (0x2c00, 0x2fef),
  (0x3001, 0xd7ff), (0xf900, 0xfdcf), (0xfdf0, 0xfffd), (0x10000, 0xeffff)]

/-- The further characters of names. -/
def nameMores : CodePoints := [
  (0x2d, 0x2e), (0x30, 0x39), (0xb7, 0xb7), (0x300, 0x36f), (0x203f, 0x2040)]

/-- Whether a name without a prefix can start with a character. -/
def isNameStart (c : Char) : Bool := nameStarts.contains c

/-- Whether a character can stand in a name, be it between the prefix and the rest. -/
def isNameChar (c : Char) : Bool := c == ':' || nameStarts.contains c || nameMores.contains c

theorem isNameChar_of_isNameStart {c : Char} (start : isNameStart c = true) :
    isNameChar c = true := by
  unfold isNameStart at start
  simp [isNameChar, start]

/-- Whether a character can stand in a resource identifier as it is. -/
def isUriChar (c : Char) : Bool :=
  c.isAlphanum || ("-._~:/?#[]@!$&'()*+,;=%".toList.contains c)

/-- Whether a text has the form of a resource identifier: its characters are those of one, and
what stands in front of a colon in its first part is a scheme. -/
def isUri (s : List Char) : Bool :=
  let first := s.takeWhile fun c => c != '/' && c != '?' && c != '#'
  let scheme := first.takeWhile (· != ':')
  let isScheme := (scheme.head?.any Char.isAlpha) &&
    scheme.all fun c => c.isAlphanum || c == '+' || c == '-' || c == '.'
  s.all isUriChar && (!first.contains ':' || isScheme)

end BuildEngine.Markup
