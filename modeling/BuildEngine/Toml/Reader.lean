import BuildEngine.Toml.Moment
import BuildEngine.Toml.Number
import BuildEngine.Toml.Tree

/-!
Reading values and keys in TOML. Lists may be spread over lines, tables inside of values may not;
what such a table holds under a key is closed and cannot be added to.
-/

namespace BuildEngine.Toml

open BuildEngine.Text

/-- Whether a character may stand in a name without quotation marks. -/
def isBare (c : Char) : Bool := c.isAlphanum || c == '-' || c == '_'

def readName (cs : List Char) : Reading String :=
  match cs with
  | '"' :: rest => readQuoted false .none [] rest
  | '\'' :: rest => readLiteral ['\''] isBarred rest
  | _ =>
    let name := cs.takeWhile isBare
    if name.isEmpty then flaw cs "Invalid initial character for a key part"
    else .ok (String.ofList name, cs.dropWhile isBare)

/-- Reads the names of a key, of which there are at most a number, and the spaces behind it. -/
def readNames : Nat → Key → List Char → Reading Key
  | 0, key, cs => .ok (key, cs)
  | steps + 1, key, cs =>
    match readName cs with
    | .error f => .error f
    | .ok (name, rest) =>
      match skipSpaces rest with
      | '.' :: more => readNames steps (key ++ [name]) (skipSpaces more)
      | rest => .ok (key ++ [name], rest)

def readKey (cs : List Char) : Reading Key := readNames (cs.length + 1) [] cs

abbrev ValueReader := List Char → Reading Value

/-- Reads the key of an entry, the sign behind it, and the value. -/
def readEntry (read : ValueReader) (cs : List Char) :
    Except Flaw ((Key × Value) × List Char) := do
  let (key, rest) ← readKey cs
  match rest with
  | '=' :: rest => do
    let (v, rest) ← read (skipSpaces rest)
    return ((key, v), rest)
  | _ => flaw rest "Expected '=' after a key in a key/value pair"

/-- Reads the items of a list, of which there are at most a number, up to its closing bracket. -/
def readItems (read : ValueReader) (size : Nat) : Nat → List Value → ValueReader
  | 0, _, cs => flaw cs "Unclosed array"
  | steps + 1, taken, cs =>
    match skipLines size cs with
    | .error f => .error f
    | .ok (']' :: rest) => .ok (.list taken.reverse, rest)
    | .ok cs =>
      match read cs with
      | .error f => .error f
      | .ok (v, rest) =>
        match skipLines size rest with
        | .error f => .error f
        | .ok (']' :: rest) => .ok (.list (v :: taken).reverse, rest)
        | .ok (',' :: rest) => readItems read size steps (v :: taken) rest
        | .ok rest => flaw rest "Unclosed array"

/-- What is said of a key that cannot be added to what is closed. -/
def closedText (key : Key) : String := s!"Cannot mutate immutable namespace {keyText key}"

/-- What is said of a key at which there is something else. -/
def overwriteText : String := "Cannot overwrite a value"

/-- Reads the entries of a table inside of a value, of which there are at most a number, up to its
closing brace. -/
def readInline (read : ValueReader) : Nat → Entries → List Key → ValueReader
  | 0, _, _, cs => flaw cs "Unclosed inline table"
  | steps + 1, entries, closed, cs =>
    match readEntry read cs with
    | .error f => .error f
    | .ok ((key, v), rest) =>
      if isBelow closed key then flaw rest (closedText key)
      else
        match changeTable false (addEntry (lastName key) v) (parentOf key) entries with
        | .error .noTable => flaw rest overwriteText
        | .error .taken => flaw rest s!"Duplicate inline table key {quote (lastName key)}"
        | .ok entries =>
          match skipSpaces rest with
          | '\x7d' :: rest => .ok (.record entries, rest)
          | ',' :: rest =>
            let closed := if isNested v then closed ++ [key] else closed
            readInline read steps entries closed (skipSpaces rest)
          | rest => flaw rest "Unclosed inline table"

/-- Reads a moment or a number. -/
def readScalar (cs : List Char) : Reading Value :=
  match readMoment? cs with
  | some (some v, rest) => .ok (v, rest)
  | some (none, _) => flaw cs "Invalid date or datetime"
  | none =>
    match readNumber? cs with
    | some found => .ok found
    | none => flaw cs "Invalid value"

/-- Reads a value in which lists and tables are nested up to a depth; no text or list in it is
longer than a size. -/
def readValue (size : Nat) : Nat → ValueReader
  | 0, cs => flaw cs "Invalid value"
  | depth + 1, cs =>
    match cs with
    | '"' :: _ | '\'' :: _ => (readText cs).map fun found => (.text found.1, found.2)
    | 't' :: 'r' :: 'u' :: 'e' :: rest => .ok (.flag true, rest)
    | 'f' :: 'a' :: 'l' :: 's' :: 'e' :: rest => .ok (.flag false, rest)
    | '[' :: rest => readItems (readValue size depth) size size [] rest
    | '\x7b' :: rest =>
      match skipSpaces rest with
      | '\x7d' :: rest => .ok (.record [], rest)
      | rest => readInline (readValue size depth) size [] [] rest
    | _ => readScalar cs

end BuildEngine.Toml
