import BuildEngine.Document.Basic
import BuildEngine.Number.Literal
import BuildEngine.Text.Quoted

/-!
Documents as JSON. Fields keep their order. A number without a point and an exponent is an integer
of any size. The reader takes what is well formed; of what is not, it may take more than it should.
-/

namespace BuildEngine.Json

/-- A reader of values: the value in front of a text, and what follows it. -/
abbrev Reader := List Char → Option (Value × List Char)

def skipBlank (cs : List Char) : List Char := cs.dropWhile Char.isWhitespace

/-- The number that hexadecimal digits denote. -/
def ofHex (digits : List Char) : Nat :=
  digits.foldl (fun n c => n * 16 + (if c.isDigit then c.toNat - 48 else c.toLower.toNat - 87)) 0

/-- The character that stands for itself or for a control character behind a backslash. -/
def escapedChar : Char → Char
  | 'n' => '\n'
  | 't' => '\t'
  | 'r' => '\r'
  | 'b' => '\x08'
  | 'f' => '\x0c'
  | c => c

/-- Reads a text up to its closing quotation mark. Characters beyond sixteen bits are written as
two units, of which the first is kept until the second comes. -/
def readText (high : Nat) (taken : List Char) : List Char → Option (String × List Char)
  | [] => none
  | '"' :: rest => some (String.ofList taken.reverse, rest)
  | '\\' :: 'u' :: a :: b :: c :: d :: rest =>
    let unit := ofHex [a, b, c, d]
    if 0xd800 ≤ unit ∧ unit < 0xdc00 then readText unit taken rest
    else if 0xdc00 ≤ unit ∧ unit < 0xe000 then
      readText 0 (Char.ofNat (0x10000 + (high - 0xd800) * 0x400 + (unit - 0xdc00)) :: taken) rest
    else readText 0 (Char.ofNat unit :: taken) rest
  | '\\' :: c :: rest => readText 0 (escapedChar c :: taken) rest
  | c :: rest => readText 0 (c :: taken) rest

/-- The value of a word without quotation marks. -/
def ofWord? (word : String) : Option Value :=
  if word = "null" then some .nothing
  else if word = "true" then some (.flag true)
  else if word = "false" then some (.flag false)
  else
    match word.toInt?, Number.readReal word with
    | some n, _ => some (.int n)
    | none, .ok x => some (.real x)
    | none, .error _ => none

def isWordPart (c : Char) : Bool := c.isAlphanum || c == '-' || c == '+' || c == '.'

/-- Reads the items of a list that is not empty, up to its closing bracket. -/
def readItems (read : Reader) : Nat → List Value → Reader
  | 0, _, _ => none
  | steps + 1, taken, cs =>
    match read cs with
    | none => none
    | some (v, rest) =>
      match skipBlank rest with
      | ',' :: rest => readItems read steps (v :: taken) rest
      | ']' :: rest => some (.list (v :: taken).reverse, rest)
      | _ => none

/-- Reads the name of a field, its colon and its value. -/
def readField (read : Reader) (cs : List Char) : Option ((String × Value) × List Char) :=
  match skipBlank cs with
  | '"' :: rest =>
    match readText 0 [] rest with
    | none => none
    | some (name, rest) =>
      match skipBlank rest with
      | ':' :: rest => (read rest).map fun found => ((name, found.1), found.2)
      | _ => none
  | _ => none

/-- Reads the fields of a record that is not empty, up to its closing brace. -/
def readFields (read : Reader) : Nat → List (String × Value) → Reader
  | 0, _, _ => none
  | steps + 1, taken, cs =>
    match readField read cs with
    | none => none
    | some (entry, rest) =>
      match skipBlank rest with
      | ',' :: rest => readFields read steps (entry :: taken) rest
      | '\x7d' :: rest => some (.record (entry :: taken).reverse, rest)
      | _ => none

/-- Reads a value in which lists and records are nested up to a depth; none of them has more than
a number of members. -/
def readValue (members : Nat) : Nat → Reader
  | 0, _ => none
  | depth + 1, cs =>
    match skipBlank cs with
    | '[' :: rest =>
      match skipBlank rest with
      | ']' :: rest => some (.list [], rest)
      | rest => readItems (readValue members depth) members [] rest
    | '\x7b' :: rest =>
      match skipBlank rest with
      | '\x7d' :: rest => some (.record [], rest)
      | rest => readFields (readValue members depth) members [] rest
    | '"' :: rest => (readText 0 [] rest).map fun found => (.text found.1, found.2)
    | rest =>
      (ofWord? (String.ofList (rest.takeWhile isWordPart))).map fun v =>
        (v, rest.dropWhile isWordPart)

/-- Reads a document. -/
def read? (text : String) : Option Value :=
  let cs := text.toList
  match readValue cs.length cs.length cs with
  | some (v, rest) => if (skipBlank rest).isEmpty then some v else none
  | none => none

/-- A character inside quotation marks. -/
def writeChar (c : Char) : String :=
  if c == '"' then "\\\""
  else if c == '\\' then "\\\\"
  else if c.toNat < 0x20 then "\\u" ++ String.ofList (Text.hexDigits 4 c.toNat)
  else c.toString

/-- A text in quotation marks. -/
def writeText (s : String) : String := "\"" ++ String.join (s.toList.map writeChar) ++ "\""

mutual

/-- Writes a document; what JSON has no form for is written as its text. -/
def write : Value → String
  | .nothing | .object _ => "null"
  | .flag b => if b then "true" else "false"
  | .int n => toString n
  | .real x => x.text
  | .text s => writeText s
  | .path p => writeText p.text
  | .moment _ shown _ => writeText shown
  | .member _ name _ => writeText name
  | .reference r => writeText r.id
  | .list vs => "[" ++ ",".intercalate (writeItems vs) ++ "]"
  | .record fs => "\x7b" ++ ",".intercalate (writeFields fs) ++ "\x7d"

def writeItems : List Value → List String
  | [] => []
  | v :: rest => write v :: writeItems rest

def writeFields : List (String × Value) → List String
  | [] => []
  | (name, v) :: rest => (writeText name ++ ":" ++ write v) :: writeFields rest

end

end BuildEngine.Json
