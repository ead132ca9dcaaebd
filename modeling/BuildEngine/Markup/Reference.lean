import BuildEngine.Markup.Scan

/-!
References in markup: characters that are given by their codes, and the entities that a document
declares. The text of an entity may hold references itself; how deeply they are nested is limited,
so an entity that refers to itself is an error.
-/

namespace BuildEngine.Markup

/-- The entities of a document. -/
structure Entities where
  /-- The texts of the declared entities, oldest first. -/
  texts : List (List Char × List Char) := []
  /-- Whether there may be declarations that are not read. An entity that is not known then stands
  for nothing. -/
  isOpen : Bool := false
  deriving Inhabited

namespace Entities

/-- The text of an entity; its first declaration counts. -/
def find? (es : Entities) (name : List Char) : Option (List Char) :=
  (es.texts.find? fun entry => entry.1 == name).map Prod.snd

/-- The depth to which references can be nested. -/
def depth : Nat := 40

end Entities

/-- What a reference stands for: a character, or an entity. -/
inductive Referent where
  | char (c : Char)
  | entity (name : List Char)
  deriving Repr, DecidableEq

def namedChar? (name : List Char) : Option Char :=
  match String.ofList name with
  | "lt" => some '<'
  | "gt" => some '>'
  | "amp" => some '&'
  | "quot" => some '"'
  | "apos" => some '\''
  | _ => none

/-- Whether a character is a digit to a base of ten or sixteen. -/
def isDigitTo (base : Nat) (c : Char) : Bool :=
  c.isDigit || (base == 16 && (('a' ≤ c && c ≤ 'f') || ('A' ≤ c && c ≤ 'F')))

/-- The value of a digit. -/
def digitOf (c : Char) : Nat :=
  if c.isDigit then c.toNat - 48 else if 'a' ≤ c then c.toNat - 87 else c.toNat - 55

/-- The character of a code, if it may stand in a document. -/
def charOf? (base : Nat) (digits : List Char) : Option Char :=
  let code := digits.foldl (fun n c => n * base + digitOf c) 0
  let c := Char.ofNat code
  if c.toNat = code ∧ isLegal c then some c else none

namespace Reader

/-- The character that a code stands for, behind the marks in front of the code. -/
def readCode (base : Nat) : Reader Char := do
  let digits ← takeWhile (isDigitTo base)
  match ← peek, charOf? base digits with
  | some ';', some c => do
    expect ";"
    return c
  | _, _ => fail

/-- What a reference stands for, behind the mark with which it starts. -/
def readReferent : Reader Referent := do
  if ← accept "#x" then return .char (← readCode 16)
  if ← accept "#" then return .char (← readCode 10)
  let name ← readName
  expect ";"
  match namedChar? name with
  | some c => return .char c
  | none => return .entity name

end Reader

/-- Reads a text from its start to its end as a document of its own. -/
def within {α : Type} (text : List Char) (reader : Reader α) : Except Flaw α :=
  (reader.run { text, rest := text }).map Prod.fst

namespace Reader

/-- Runs a reading whose failure counts as one of the place at hand. -/
def here {α : Type} (result : Except Flaw α) : Reader α :=
  match result with
  | .ok a => return a
  | .error _ => fail

/-- The characters of an attribute's value up to a mark, or up to the end if there is none. Spaces
of any kind count as blanks, those apart that are given by their codes. `valueOf` reads the texts
of entities, and `taken` holds the characters in front, backwards. -/
def readValueTo (es : Entities) (mark : Option Char)
    (valueOf : List Char → Except Flaw (List Char)) : Nat → List Char → Reader (List Char)
  | 0, _ => fail
  | steps + 1, taken => do
    match ← rest with
    | [] => if mark.isNone then return taken.reverse else fail
    | '\r' :: '\n' :: after => do
      moveTo after
      readValueTo es mark valueOf steps (' ' :: taken)
    | '&' :: after => do
      moveTo after
      match ← readReferent with
      | .char c => readValueTo es mark valueOf steps (c :: taken)
      | .entity name =>
        match es.find? name with
        | some text => do
          let blank := (← here (valueOf text)).map fun c => if isSpace c then ' ' else c
          readValueTo es mark valueOf steps (blank.reverse ++ taken)
        | none => if es.isOpen then readValueTo es mark valueOf steps taken else fail
    | c :: after => do
      if some c == mark then
        moveTo after
        return taken.reverse
      if c == '<' || !isLegal c then fail
      moveTo after
      readValueTo es mark valueOf steps ((if isSpace c then ' ' else c) :: taken)

/-- The text of an entity in the value of an attribute, where references are nested down to a
depth. -/
def entityValue (es : Entities) : Nat → List Char → Except Flaw (List Char)
  | 0, _ => .error default
  | depth + 1, text =>
    within text (readValueTo es none (entityValue es depth) (text.length + 1) [])

/-- The value of an attribute, in its quotes. -/
def readValue (es : Entities) : Reader (List Char) := do
  let mark ← if ← accept "\"" then pure '"' else do
    expect "'"
    pure '\''
  readValueTo es mark (entityValue es Entities.depth) ((← rest).length + 1) []

end Reader
end BuildEngine.Markup
