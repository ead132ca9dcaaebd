import BuildEngine.Markup.Character

/-!
Scanning markup: taking spaces, words and names from the front of what is left of a document, and
reporting where it goes wrong. Lines end with a line feed.
-/

namespace BuildEngine.Markup

/-- Where a document goes wrong, and what a message about it shows below its first line. -/
structure Flaw where
  line : Nat
  detail : String := ""
  deriving Repr, DecidableEq, Inhabited

/-- A document while it is read: all of it, and what is left. -/
structure Reading where
  text : List Char
  rest : List Char

/-- A step of reading a document. -/
abbrev Reader := StateT Reading (Except Flaw)

namespace Reading

/-- What was read so far. -/
def done (r : Reading) : List Char := r.text.take (r.text.length - r.rest.length)

/-- The line that is being read, counted from one. -/
def line (r : Reading) : Nat := r.done.count '\n' + 1

/-- The column that is being read, counted from one. -/
def column (r : Reading) : Nat := (r.done.reverse.takeWhile (· != '\n')).length + 1

end Reading

/-- As much of the front of a text as fits into a number of bytes. -/
def fitting : Nat → List Char → List Char
  | _, [] => []
  | room, c :: rest => if c.utf8Size ≤ room then c :: fitting (room - c.utf8Size) rest else []

namespace Reader

variable {α : Type}

/-- The line that is being read. -/
def line : Reader Nat := do return (← get).line

/-- Reports that the document goes wrong here. -/
def fail : Reader α := do throw { line := ← line }

/-- The number of bytes that a message shows of what the document holds. -/
def shownSize : Nat := 50

/-- Reports that the document goes wrong here, where the message shows a text below its first
line, followed by the place. -/
def failShowing (below : List Char) : Reader α := do
  let r ← get
  let shown := String.ofList below
  throw { line := r.line, detail := s!"{shown}, line {r.line}, column {r.column}" }

/-- What is left. -/
def rest : Reader (List Char) := do return (← get).rest

/-- Goes on to what is left further on. -/
def moveTo (rest : List Char) : Reader Unit := modify fun r => { r with rest }

/-- The next character, if there is one. -/
def peek : Reader (Option Char) := do return (← rest).head?

/-- Takes a word if it is next, and tells whether it was. -/
def accept (word : String) : Reader Bool := do
  let cs ← rest
  if word.toList.isPrefixOf cs then
    moveTo (cs.drop word.length)
    return true
  return false

/-- Takes a word that has to be next. -/
def expect (word : String) : Reader Unit := do
  if !(← accept word) then fail

/-- Takes characters of a kind as long as there are any. -/
def takeWhile (select : Char → Bool) : Reader (List Char) := do
  let cs ← rest
  moveTo (cs.dropWhile select)
  return cs.takeWhile select

/-- Takes spaces, and tells whether there were any. -/
def skipSpace : Reader Bool := do return !(← takeWhile isSpace).isEmpty

/-- Takes spaces that have to be there. -/
def expectSpace : Reader Unit := do
  if !(← skipSpace) then fail

/-- Takes a name that has to be there. -/
def readName : Reader (List Char) := do
  match ← peek with
  | some c => if isNameStart c || c == ':' then takeWhile isNameChar else fail
  | none => fail

/-- Takes a text in quotes of either kind, which holds only characters of a kind. -/
def readQuoted (select : Char → Bool) : Reader (List Char) := do
  let mark ← if ← accept "\"" then pure '"' else do
    expect "'"
    pure '\''
  let cs ← takeWhile fun c => c != mark && select c
  expect mark.toString
  return cs

end Reader
end BuildEngine.Markup
