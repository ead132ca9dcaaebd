import BuildEngine.Kind.ValueType
import BuildEngine.Toml.Reader

/-!
Writing configurations in TOML. The plain entries of a table come before the tables in it; every
table has a header of its own, unless it holds nothing but tables. A list is spread over lines, and
a list of tables is a list of headers unless each of its tables fits into a line.
-/

namespace BuildEngine.Toml

open BuildEngine.Text

/-- A value that has no form in a configuration; the error is the name of its type. -/
abbrev Written := Except String String

/-- The message about a value of a type that cannot be written. -/
def unwritableText (type : String) : String := s!"Object of type '{type}' is not TOML serializable"

/-- The longest line that a table in a list may take. -/
def maxLine : Nat := 100

/-- A character inside quotation marks. -/
def writeChar (c : Char) : String :=
  match c with
  | '\x08' => "\\b"
  | '\n' => "\\n"
  | '\x0c' => "\\f"
  | '\r' => "\\r"
  | '"' => "\\\""
  | '\\' => "\\\\"
  | c => if isBarred c then "\\u" ++ String.ofList (hexDigits 4 c.toNat) else c.toString

/-- A text in quotation marks. -/
def writeText (s : String) : String := "\"" ++ String.join (s.toList.map writeChar) ++ "\""

/-- A name in a key, in quotation marks if it needs them. -/
def writeName (name : String) : String :=
  if !name.isEmpty && name.toList.all isBare then name else writeText name

/-- The indentation of lists inside of lists. -/
def indent (level : Nat) : String := "".pushn ' ' (4 * level)

mutual

/-- A value inside of an entry, in lists of a level. -/
def writeValue (level : Nat) : Value → Written
  | .flag b => .ok (if b then "true" else "false")
  | .int n => .ok (toString n)
  | .real x => .ok x.text
  | .moment _ shown _ => .ok shown
  | .text s => .ok (writeText s)
  | .list [] => .ok "[]"
  | .list vs =>
    (writeItems (level + 1) vs).map fun lines => s!"[\n{lines}{indent level}]"
  | .record [] => .ok "\x7b\x7d"
  | .record fs => (writeFields fs).map fun texts => "\x7b " ++ ", ".intercalate texts ++ " \x7d"
  | v => .error (v.typeName fun _ => "object")

def writeItems (level : Nat) : List Value → Written
  | [] => .ok ""
  | v :: rest => do
    let text ← writeValue level v
    let others ← writeItems level rest
    return s!"{indent level}{text},\n{others}"

/-- The entries of a table inside of a value. -/
def writeFields : List (String × Value) → Except String (List String)
  | [] => .ok []
  | (name, v) :: rest => do
    let text ← writeValue 0 v
    return s!"{writeName name} = {text}" :: (← writeFields rest)

end

/-- Whether a table in a list fits into a line. -/
def fitsLine (v : Value) : Bool :=
  match writeValue 0 v with
  | .ok text => 4 + text.length + 1 ≤ maxLine && !text.contains '\n'
  | .error _ => true

def isTable : Value → Bool
  | .record _ => true
  | _ => false

/-- Whether a value is a list of tables with headers of their own. -/
def isTableList : Value → Bool
  | .list [] => false
  | .list vs => vs.all isTable && !vs.all fitsLine
  | _ => false

/-- The lines of the plain entries of a table. -/
def writePlain : Entries → Written
  | [] => .ok ""
  | (name, v) :: rest => do
    if isTable v || isTableList v then writePlain rest
    else
      let text ← writeValue 0 v
      let others ← writePlain rest
      return s!"{writeName name} = {text}\n{others}"

/-- The header of a table, if it has one: a table in a list always, another one unless it is the
outermost or holds nothing but tables. -/
def header (path : String) (inList : Bool) (entries : Entries) : String :=
  let isPlain := fun (entry : String × Value) => !(isTable entry.2 || isTableList entry.2)
  if inList then s!"[[{path}]]\n"
  else if !path.isEmpty && (entries.isEmpty || entries.any isPlain) then s!"[{path}]\n"
  else ""

/-- The path to a table inside of another one. -/
def join (path name : String) : String :=
  if path.isEmpty then writeName name else s!"{path}.{writeName name}"

mutual

def writeTable (path : String) (inList : Bool) : Value → Written
  | .record fs => do
    let own := header path inList fs ++ (← writePlain fs)
    return own ++ (← writeTables path (!own.isEmpty) fs)
  | _ => .ok ""

/-- The tables in a table, with an empty line in front of each that does not come first. -/
def writeTables (path : String) (started : Bool) : List (String × Value) → Written
  | [] => .ok ""
  | (name, v) :: rest => do
    let gap := if started then "\n" else ""
    if isTable v then
      let text ← writeTable (join path name) false v
      return gap ++ text ++ (← writeTables path true rest)
    else if isTableList v then
      let text ← match v with
        | .list vs => writeTableItems (join path name) started vs
        | _ => .ok ""
      return text ++ (← writeTables path true rest)
    else writeTables path started rest

def writeTableItems (path : String) (started : Bool) : List Value → Written
  | [] => .ok ""
  | v :: rest => do
    let gap := if started then "\n" else ""
    let text ← writeTable path true v
    return gap ++ text ++ (← writeTableItems path true rest)

end

/-- Writes a configuration. -/
def write (entries : Entries) : Written := writeTable "" false (.record entries)

end BuildEngine.Toml
