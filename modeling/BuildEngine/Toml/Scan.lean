import BuildEngine.Text.Quoted

/-!
Reading configuration texts in TOML: flaws, blanks, comments and quoted texts. A reader takes what
it reads from the front of a text and gives the rest; a flaw is found at a place that is told by
how many characters are left there.
-/

namespace BuildEngine.Toml

open BuildEngine.Text

/-- Why a text cannot be read, and how many of its characters stand behind the place where that
shows. -/
structure Flaw where
  detail : String
  left : Nat
  deriving Repr, DecidableEq, Inhabited

namespace Flaw

/-- The line and the column in a text at which a flaw shows. -/
def place (f : Flaw) (source : List Char) : String :=
  if f.left = 0 then "end of document"
  else
    let before := source.take (source.length - f.left)
    let line := before.count '\n' + 1
    let column := (before.reverse.takeWhile (· != '\n')).length + 1
    s!"line {line}, column {column}"

def message (f : Flaw) (source : List Char) : String := s!"{f.detail} (at {f.place source})"

end Flaw

/-- What comes of reading from the front of a text. -/
abbrev Reading (α : Type) := Except Flaw (α × List Char)

def flaw {α : Type} (cs : List Char) (detail : String) : Except Flaw α := .error ⟨detail, cs.length⟩

/-- Whether a character separates words within a line. -/
def isSpace (c : Char) : Bool := c == ' ' || c == '\t'

/-- Whether a character must not stand in a line. -/
def isBarred (c : Char) : Bool := (c.toNat < 0x20 && c != '\t') || c.toNat == 0x7f

/-- Whether a character must not stand in several lines. -/
def isBarredInLines (c : Char) : Bool := isBarred c && c != '\n'

def skipSpaces (cs : List Char) : List Char := cs.dropWhile isSpace

def checkBody (barred : Char → Bool) (body rest : List Char) : Except Flaw Unit :=
  match body.dropWhile (!barred ·) with
  | [] => .ok ()
  | c :: later =>
    flaw (c :: later ++ rest) s!"Found invalid character {quote c.toString}"

/-- A text behind the comment in front of it, if there is one. -/
def skipComment : List Char → Except Flaw (List Char)
  | '#' :: cs =>
    let body := cs.takeWhile (· != '\n')
    let rest := cs.dropWhile (· != '\n')
    (checkBody isBarred body rest).map fun _ => rest
  | cs => .ok cs

/-- A text behind the spaces, line ends and comments in front of it, of which there are at most a
number. -/
def skipLines : Nat → List Char → Except Flaw (List Char)
  | 0, cs => .ok cs
  | steps + 1, cs =>
    match cs.dropWhile fun c => isSpace c || c == '\n' with
    | '#' :: rest =>
      match skipComment ('#' :: rest) with
      | .ok later => skipLines steps later
      | .error f => .error f
    | rest => .ok rest

/-- The text up to the first occurrence of a mark, and what follows the mark. -/
def upTo (mark : List Char) : List Char → Option (List Char × List Char)
  | [] => none
  | c :: rest =>
    if mark.isPrefixOf (c :: rest) then some ([], (c :: rest).drop mark.length)
    else (upTo mark rest).map fun found => (c :: found.1, found.2)

/-- Reads a text that stands for itself, up to a mark. -/
def readLiteral (mark : List Char) (barred : Char → Bool) (cs : List Char) : Reading String :=
  match upTo mark cs with
  | none => flaw [] s!"Expected {quote (String.ofList mark)}"
  | some (body, rest) =>
    (checkBody barred body (mark ++ rest)).map fun _ => (String.ofList body, rest)

/-- Where a reader stands inside a quoted text. -/
inductive Escape where
  /-- Outside of all escapes. -/
  | none
  /-- Behind a backslash at the end of a line, whether or not the end was read. -/
  | folding (lineEnded : Bool)
  /-- Inside the code of a character: the digits to come, the value of those read, and what was
  left in front of them. -/
  | code (digits value left : Nat)

/-- The value of a hexadecimal digit. -/
def hexValue? (c : Char) : Option Nat :=
  if c.isDigit then some (c.toNat - 48)
  else if 'a' ≤ c ∧ c ≤ 'f' then some (c.toNat - 87)
  else if 'A' ≤ c ∧ c ≤ 'F' then some (c.toNat - 55)
  else Option.none

/-- The character that a letter behind a backslash stands for. -/
def escaped? : Char → Option Char
  | 'b' => some '\x08'
  | 't' => some '\t'
  | 'n' => some '\n'
  | 'f' => some '\x0c'
  | 'r' => some '\r'
  | '"' => some '"'
  | '\\' => some '\\'
  | _ => Option.none

/-- What is wrong with a backslash that begins no escape. -/
def strayBackslash : String := "Unescaped '\\' in a string"

/-- Whether a character is none of those that may stand behind a folded line. -/
def endsFolding (c : Char) : Bool := !isSpace c && c != '\n'

def readQuoted (inLines : Bool) : Escape → List Char → List Char → Reading String
  | .code _ _ left, _, [] => .error ⟨"Invalid hex value", left⟩
  | _, _, [] => .error ⟨"Unterminated string", 0⟩
  | .code digits value left, taken, c :: rest =>
    match hexValue? c with
    | Option.none => .error ⟨"Invalid hex value", left⟩
    | some digit =>
      let n := value * 16 + digit
      if digits > 1 then readQuoted inLines (.code (digits - 1) n left) taken rest
      else if n.isValidChar then readQuoted inLines .none (Char.ofNat n :: taken) rest
      else flaw rest "Escaped character is not a Unicode scalar value"
  | escape, taken, c :: rest =>
    let stays := match escape with
      | .folding lineEnded => !(lineEnded && endsFolding c)
      | _ => false
    if stays then
      if endsFolding c then flaw (c :: rest) strayBackslash
      else
        let ended := match escape with
          | .folding lineEnded => lineEnded || c == '\n'
          | _ => true
        readQuoted inLines (.folding ended) taken rest
    else if c == '"' then
      if !inLines then .ok (String.ofList taken.reverse, rest)
      else
        match rest with
        | '"' :: '"' :: later => .ok (String.ofList taken.reverse, later)
        | _ => readQuoted inLines .none ('"' :: taken) rest
    else if c == '\\' then
      match rest with
      | [] => flaw [] strayBackslash
      | d :: later =>
        if inLines && !endsFolding d then readQuoted inLines (.folding (d == '\n')) taken later
        else if d == 'u' then readQuoted inLines (.code 4 0 later.length) taken later
        else if d == 'U' then readQuoted inLines (.code 8 0 later.length) taken later
        else
          match escaped? d with
          | some meant => readQuoted inLines .none (meant :: taken) later
          | Option.none => flaw later strayBackslash
    else if isBarred c && !(inLines && c == '\n') then
      flaw (c :: rest) s!"Illegal character {quote c.toString}"
    else readQuoted inLines .none (c :: taken) rest

/-- Adds up to two marks that stand behind the closing marks of a text in several lines. -/
def withMarks (mark : Char) (found : String × List Char) : String × List Char :=
  let more := (found.2.takeWhile (· == mark)).take 2
  (found.1 ++ String.ofList more, found.2.drop more.length)

def skipLineEnd : List Char → List Char
  | '\n' :: rest => rest
  | cs => cs

/-- Reads a text that starts with a mark, in one or in several lines. -/
def readText : List Char → Reading String
  | '"' :: '"' :: '"' :: cs => (readQuoted true .none [] (skipLineEnd cs)).map (withMarks '"')
  | '\'' :: '\'' :: '\'' :: cs =>
    (readLiteral ['\'', '\'', '\''] isBarredInLines (skipLineEnd cs)).map (withMarks '\'')
  | '"' :: cs => readQuoted false .none [] cs
  | '\'' :: cs => readLiteral ['\''] isBarred cs
  | cs => flaw cs "Invalid value"

end BuildEngine.Toml
