import BuildEngine.Number.Binary64

/-!
The text of a binary number: the fewest decimal digits that read back as the number, and of these
the nearest to it. Numbers from 0.0001 up to below 10 ^ 16 are written with a point, others with an
exponent of at least two digits.
-/

namespace BuildEngine.Number

/-- A positive decimal: digits times a power of ten. -/
structure Decimal where
  digits : Nat
  exponent : Int
  deriving Repr, DecidableEq

/-- The reals that round to one number, around it, over a common divisor. -/
structure Roundings where
  low : Nat
  value : Nat
  high : Nat
  divisor : Nat
  /-- Whether the two ends round to the number too. -/
  closed : Bool
  deriving Repr

namespace Roundings

/-- The reals that round to `mantissa * 2 ^ exponent`. Below a power of two the next number is
only half as far away. -/
def around (mantissa : Nat) (exponent : Int) : Roundings :=
  let below := if mantissa = Nat.pow 2 52 ∧ Binary64.minExponent < exponent then 1 else 2
  let shift := exponent - 2
  let scale := if shift < 0 then 1 else Nat.pow 2 shift.natAbs
  { low := (4 * mantissa - below) * scale
    value := 4 * mantissa * scale
    high := (4 * mantissa + 2) * scale
    divisor := if shift < 0 then Nat.pow 2 shift.natAbs else 1
    closed := mantissa % 2 = 0 }

/-- Whether a decimal rounds to the number. -/
def holds (r : Roundings) (d : Decimal) : Bool :=
  let up := if d.exponent < 0 then 1 else Nat.pow 10 d.exponent.natAbs
  let down := if d.exponent < 0 then Nat.pow 10 d.exponent.natAbs else 1
  let point := d.digits * up * r.divisor
  let low := r.low * down
  let high := r.high * down
  if r.closed then decide (low ≤ point) && decide (point ≤ high)
  else decide (low < point) && decide (point < high)

/-- The multiple of a power of ten at or just below the value, with twice the distance to it and
the step, both on one scale. -/
def floorAt (r : Roundings) (exponent : Int) : Nat × Nat × Nat :=
  let dividend := if exponent < 0 then r.value * Nat.pow 10 exponent.natAbs else r.value
  let divisor := if exponent < 0 then r.divisor else r.divisor * Nat.pow 10 exponent.natAbs
  (dividend / divisor, 2 * (dividend % divisor), divisor)

/-- The decimal on the grid of a power of ten that rounds to the number and is nearest to it. -/
def onGrid? (r : Roundings) (exponent : Int) : Option Decimal :=
  let (floor, twice, step) := r.floorAt exponent
  let lower : Decimal := ⟨floor, exponent⟩
  let upper : Decimal := ⟨floor + 1, exponent⟩
  let lowerNearer := twice < step || (twice = step && floor % 2 = 0)
  match r.holds lower && floor ≠ 0, r.holds upper with
  | true, true => some (if lowerNearer then lower else upper)
  | true, false => some lower
  | false, true => some upper
  | false, false => none

/-- The first hit on grids that get finer by ten. -/
def coarsest (r : Roundings) : Nat → Int → Option Decimal
  | 0, _ => none
  | tries + 1, exponent =>
    match r.onGrid? exponent with
    | some d => some d
    | none => coarsest r tries (exponent - 1)

end Roundings

/-- An exponent of ten at which a positive number has at most one digit, or two. -/
def coarseExponent (mantissa : Nat) (exponent : Int) : Int :=
  ((mantissa.log2 : Int) + exponent + 1) * 30103 / 100000 + 1

def shortest (mantissa : Nat) (exponent : Int) : Decimal :=
  ((Roundings.around mantissa exponent).coarsest 24 (coarseExponent mantissa exponent)).getD
    ⟨mantissa, 0⟩

/-- The decimal digits of a natural number. -/
def digitsOf (n : Nat) : List Char := Nat.toDigits 10 n

/-- Where numbers go over to an exponent, by the position of the point before the first digit. -/
structure PointRange where
  least : Int
  greatest : Int

/-- A point is written for 0.0001 and above and below 10 ^ 16. -/
def pointRange : PointRange := ⟨-3, 16⟩

/-- An exponent, with its sign and at least two digits. -/
def exponentText (exponent : Int) : List Char :=
  let digits := digitsOf exponent.natAbs
  (if exponent < 0 then '-' else '+') ::
    (if digits.length < 2 then '0' :: digits else digits)

/-- The layout of digits with the decimal point at `point` places from their start. -/
def layout (digits : List Char) (point : Int) : List Char :=
  if pointRange.least ≤ point ∧ point ≤ pointRange.greatest then
    if point ≤ 0 then '0' :: '.' :: (List.replicate point.natAbs '0' ++ digits)
    else
      let whole := digits.take point.natAbs
      let zeros := List.replicate (point.natAbs - digits.length) '0'
      let fraction := digits.drop point.natAbs
      whole ++ zeros ++ '.' :: (if fraction.isEmpty then ['0'] else fraction)
  else
    match digits with
    | [] => []
    | first :: rest =>
      first :: ((if rest.isEmpty then [] else '.' :: rest) ++ 'e' :: exponentText (point - 1))

def withoutTrailingZeros (digits : List Char) : List Char :=
  (digits.reverse.dropWhile (· == '0')).reverse

namespace Binary64

/-- The text of a number. -/
def text : Binary64 → String
  | nan => "nan"
  | infinite negative => if negative then "-inf" else "inf"
  | finite negative mantissa exponent =>
    let sign := if negative then ['-'] else []
    if mantissa = 0 then String.ofList (sign ++ ['0', '.', '0'])
    else
      let decimal := shortest mantissa exponent
      let all := digitsOf decimal.digits
      String.ofList (sign ++ layout (withoutTrailingZeros all) (all.length + decimal.exponent))

end Binary64
end BuildEngine.Number
