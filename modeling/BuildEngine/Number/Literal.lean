import BuildEngine.Text.Blank
import BuildEngine.Text.Digit
import BuildEngine.Text.Quoted
import BuildEngine.Number.Binary64

/-!
Reading numbers as people write them: blanks around, a sign, digits of any script, and single
underscores between digits. A decimal may have a point, an exponent, or be an infinity or `nan`.
-/

namespace BuildEngine.Number

open BuildEngine.Text

/-- Why a text is no number. -/
inductive LiteralError where
  | notInteger (text : String)
  | tooManyDigits (count : Nat)
  | notDecimal (text : String)
  deriving Repr, DecidableEq

/-- The number of digits that an integer literal may have. -/
def maxDigits : Nat := 4300

namespace LiteralError

def message : LiteralError → String
  | notInteger text => s!"invalid literal for int() with base 10: {quote text}"
  | tooManyDigits count =>
    s!"Exceeds the limit ({maxDigits} digits) for integer string conversion: value has {count} " ++
      "digits; use sys.set_int_max_str_digits() to increase the limit"
  | notDecimal text => s!"could not convert string to float: {quote text}"

end LiteralError

/-- Digits with single underscores between them, as values; `after` tells that a digit has just
been read, so that an underscore may follow. -/
def digitRun? (after : Bool) : List Char → Option (List Nat)
  | [] => if after then some [] else none
  | '_' :: rest => if after && !rest.isEmpty then digitRun? false rest else none
  | c :: rest =>
    match digitValue? c with
    | some value => (digitRun? true rest).map (value :: ·)
    | none => none

/-- The number that decimal digits denote. -/
def ofDigits (digits : List Nat) : Nat :=
  digits.foldl (fun n digit => n * 10 + digit) 0

/-- A sign in front of a text: whether it is negative, and the rest. -/
def splitSign : List Char → Bool × List Char
  | '-' :: rest => (true, rest)
  | '+' :: rest => (false, rest)
  | cs => (false, cs)

/-- Reads an integer. -/
def readInt (text : String) : Except LiteralError Int :=
  let (negative, body) := splitSign (trimChars text.toList)
  match digitRun? false body with
  | none => .error (.notInteger text)
  | some digits =>
    if maxDigits < digits.length then .error (.tooManyDigits digits.length)
    else .ok (if negative then -(ofDigits digits : Int) else ofDigits digits)

/-- An exponent after its letter. -/
def readExponent? (cs : List Char) : Option Int :=
  let (negative, body) := splitSign cs
  (digitRun? false body).map fun digits =>
    if negative then -(ofDigits digits : Int) else ofDigits digits

/-- A part of a decimal that may be empty. -/
def optionalDigits? (cs : List Char) : Option (List Nat) :=
  if cs.isEmpty then some [] else digitRun? false cs

/-- Exponents of ten beyond this bound give zero or infinity whatever the digits are. -/
def clampExponent (digits : Nat) (exponent : Int) : Int :=
  let reach : Int := 400 + digits
  max (-reach) (min reach exponent)

/-- A decimal without sign: digits, a point with digits on at least one side, an exponent. -/
def readUnsigned? (cs : List Char) : Option (List Nat × Int) :=
  let isExponentMark := fun c => c == 'e' || c == 'E'
  let body := cs.takeWhile (!isExponentMark ·)
  let tail := cs.drop body.length
  let exponent? := match tail with
    | [] => some 0
    | _ :: rest => readExponent? rest
  let whole := body.takeWhile (· != '.')
  let fraction := (body.drop whole.length).drop 1
  if whole.isEmpty && fraction.isEmpty then none
  else
    match exponent?, optionalDigits? whole, optionalDigits? fraction with
    | some exponent, some before, some after =>
      some (before ++ after, exponent - (after.length : Int))
    | _, _, _ => none

/-- Reads a decimal as the nearest binary number. -/
def readReal (text : String) : Except LiteralError Binary64 :=
  let (negative, body) := splitSign (trimChars text.toList)
  let word := String.ofList (body.map Char.toLower)
  if word = "inf" ∨ word = "infinity" then .ok (.infinite negative)
  else if word = "nan" then .ok .nan
  else
    match readUnsigned? body with
    | some (digits, exponent) =>
      .ok (.ofDecimal negative (ofDigits digits) (clampExponent digits.length exponent))
    | none => .error (.notDecimal text)

end BuildEngine.Number
