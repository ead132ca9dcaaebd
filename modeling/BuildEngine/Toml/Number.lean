import BuildEngine.Document.Value
import BuildEngine.Toml.Scan

/-!
Numbers in TOML: whole numbers with the base ten, sixteen, eight or two, and decimals with a
fraction or an exponent. Single underscores may stand between digits.
-/

namespace BuildEngine.Toml

/-- The digits in front of a text that follow a first digit, and the rest. -/
def moreDigits (isDigit : Char → Bool) : List Char → List Char × List Char
  | '_' :: d :: rest =>
    if isDigit d then
      let (digits, later) := moreDigits isDigit rest
      (d :: digits, later)
    else ([], '_' :: d :: rest)
  | c :: rest =>
    if isDigit c then
      let (digits, later) := moreDigits isDigit rest
      (c :: digits, later)
    else ([], c :: rest)
  | [] => ([], [])

/-- The digits in front of a text, if there is one at least, and the rest. -/
def digits? (isDigit : Char → Bool) : List Char → Option (List Char × List Char)
  | c :: rest =>
    if isDigit c then
      let (digits, later) := moreDigits isDigit rest
      some (c :: digits, later)
    else none
  | [] => none

def ofDigits (base : Nat) (digits : List Char) : Nat :=
  digits.foldl (fun n c => n * base + (hexValue? c).getD 0) 0

def isDigitOf (base : Nat) (c : Char) : Bool := (hexValue? c).any (· < base)

/-- The base that a letter behind a nought announces. -/
def base? : Char → Option Nat
  | 'x' => some 16
  | 'o' => some 8
  | 'b' => some 2
  | _ => none

/-- Reads a number with a base of its own. -/
def readBased? : List Char → Option (Value × List Char)
  | '0' :: letter :: rest => do
    let base ← base? letter
    let (digits, later) ← digits? (isDigitOf base) rest
    return (.int (ofDigits base digits), later)
  | _ => none

/-- A fraction or nothing in front of a text, and the rest. -/
def readFraction (cs : List Char) : String × List Char :=
  match cs with
  | '.' :: rest =>
    match digits? Char.isDigit rest with
    | some (digits, later) => ("." ++ String.ofList digits, later)
    | none => ("", cs)
  | _ => ("", cs)

/-- An exponent or nothing in front of a text, and the rest. -/
def readExponent (cs : List Char) : String × List Char :=
  let behind := fun (sign : String) (rest : List Char) =>
    match digits? Char.isDigit rest with
    | some (digits, later) => ("e" ++ sign ++ String.ofList digits, later)
    | none => ("", cs)
  match cs with
  | c :: rest =>
    if c == 'e' || c == 'E' then
      match rest with
      | '+' :: rest => behind "" rest
      | '-' :: rest => behind "-" rest
      | _ => behind "" rest
    else ("", cs)
  | [] => ("", cs)

/-- The whole part of a decimal: a nought, or digits of which the first is none. -/
def readWhole? : List Char → Option (List Char × List Char)
  | '0' :: rest => some (['0'], rest)
  | cs => digits? Char.isDigit cs

def readDecimal? (negative : Bool) (cs : List Char) : Option (Value × List Char) := do
  let (whole, rest) ← readWhole? cs
  let (fraction, rest) := readFraction rest
  let (exponent, rest) := readExponent rest
  let sign := if negative then "-" else ""
  if fraction.isEmpty && exponent.isEmpty then
    let n : Int := ofDigits 10 whole
    return (.int (if negative then -n else n), rest)
  else return (.real (.ofText (sign ++ String.ofList whole ++ fraction ++ exponent)), rest)

/-- Reads what is no decimal behind its sign: an infinity or no number at all. -/
def readSpecial? (sign : String) : List Char → Option (Value × List Char)
  | 'i' :: 'n' :: 'f' :: rest => some (.real (.ofText (sign ++ "inf")), rest)
  | 'n' :: 'a' :: 'n' :: rest => some (.real .nan, rest)
  | _ => none

/-- Reads a number, if there is one. -/
def readNumber? (cs : List Char) : Option (Value × List Char) :=
  match cs with
  | '-' :: rest => (readDecimal? true rest).or (readSpecial? "-" rest)
  | '+' :: rest => (readDecimal? false rest).or (readSpecial? "" rest)
  | _ => ((readBased? cs).or (readDecimal? false cs)).or (readSpecial? "" cs)

end BuildEngine.Toml
