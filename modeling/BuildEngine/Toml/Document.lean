import BuildEngine.Toml.Reader

/-!
Configurations in TOML: entries, and headers that open tables or add tables to lists. A table is
opened by a header once only, and what a value holds is closed for good.
-/

namespace BuildEngine.Toml

/-- A configuration as far as it was read. -/
structure Draft where
  entries : Entries := []
  /-- The table that was opened last. -/
  header : Key := []
  /-- The tables that no header may open any more. -/
  opened : List Key := []
  /-- The tables that are as good as opened when the next header comes. -/
  pending : List Key := []
  /-- The keys at and below which nothing may be added. -/
  closed : List Key := []

instance : Inhabited Draft := ⟨{}⟩

namespace Draft

/-- The first of the tables between the header and an entry that was opened by a header. -/
def redefined? (d : Draft) (between : List Key) : Option Key := between.find? d.opened.contains

/-- Adds an entry; `rest` follows it. -/
def addPair (d : Draft) (key : Key) (v : Value) (rest : List Char) : Except Flaw Draft :=
  let between := (List.range (key.length - 1)).map fun i => d.header ++ key.take (i + 1)
  let parent := d.header ++ parentOf key
  match d.redefined? between with
  | some table => flaw rest s!"Cannot redefine namespace {keyText table}"
  | none =>
    if isBelow d.closed parent then flaw rest (closedText parent)
    else
      match changeTable true (addEntry (lastName key) v) parent d.entries with
      | .error _ => flaw rest overwriteText
      | .ok entries => .ok { d with
          entries, pending := d.pending ++ between
          closed := if isNested v then d.closed ++ [d.header ++ key] else d.closed }

/-- Opens a table; `rest` follows its key. -/
def openTable (d : Draft) (key : Key) (rest : List Char) : Except Flaw Draft :=
  if d.opened.contains key || isBelow d.closed key then
    flaw rest s!"Cannot declare {keyText key} twice"
  else
    match changeTable true .ok key d.entries with
    | .error _ => flaw rest overwriteText
    | .ok entries => .ok { d with entries, header := key, opened := d.opened ++ [key] }

/-- Adds a table to a list of tables and opens it; `rest` follows its key. What was opened or
closed in the table before it is open again. -/
def openItem (d : Draft) (key : Key) (rest : List Char) : Except Flaw Draft :=
  if isBelow d.closed key then flaw rest (closedText key)
  else
    match changeTable true (addTable (lastName key)) (parentOf key) d.entries with
    | .error _ => flaw rest overwriteText
    | .ok entries =>
      let elsewhere := fun (other : Key) => !key.isPrefixOf other
      .ok { d with
        entries, header := key
        opened := d.opened.filter elsewhere ++ [key]
        closed := d.closed.filter elsewhere }

/-- Lets the tables that are as good as opened be opened. -/
def settle (d : Draft) : Draft := { d with opened := d.opened ++ d.pending, pending := [] }

/-- Reads a header behind its first bracket. -/
def readHeader (d : Draft) (cs : List Char) : Except Flaw (Draft × List Char) := do
  match cs with
  | '[' :: cs => do
    let (key, rest) ← readKey (skipSpaces cs)
    let next ← d.openItem key rest
    match rest with
    | ']' :: ']' :: rest => return (next, rest)
    | _ => flaw rest "Expected ']]' at the end of an array declaration"
  | _ => do
    let (key, rest) ← readKey (skipSpaces cs)
    let next ← d.openTable key rest
    match rest with
    | ']' :: rest => return (next, rest)
    | _ => flaw rest "Expected ']' at the end of a table declaration"

/-- Reads an entry, a header or nothing; `size` bounds the lists and texts in it. -/
def readStatement (size : Nat) (d : Draft) (cs : List Char) : Except Flaw (Draft × List Char) :=
  match cs with
  | '[' :: rest => d.settle.readHeader rest
  | '#' :: _ => .ok (d, cs)
  | c :: _ =>
    if isBare c || c == '"' || c == '\'' then do
      let ((key, v), rest) ← readEntry (readValue size size) cs
      return (← d.addPair key v rest, rest)
    else flaw cs "Invalid statement"
  | [] => .ok (d, cs)

/-- Reads lines, of which there are at most a number. -/
def readLines (size : Nat) : Nat → Draft → List Char → Except Flaw Draft
  | 0, d, _ => .ok d
  | steps + 1, d, cs =>
    match skipSpaces cs with
    | [] => .ok d
    | '\n' :: rest => readLines size steps d rest
    | cs =>
      match readStatement size d cs with
      | .error f => .error f
      | .ok (next, rest) =>
        match skipComment (skipSpaces rest) with
        | .error f => .error f
        | .ok [] => .ok next
        | .ok ('\n' :: rest) => readLines size steps next rest
        | .ok rest => flaw rest "Expected newline or end of document after a statement"

end Draft

/-- Reads a configuration, in which every line ends with a line feed. -/
def read (cs : List Char) : Except Flaw Entries :=
  (Draft.readLines (cs.length + 1) (cs.length + 1) {} cs).map (·.entries)

end BuildEngine.Toml
