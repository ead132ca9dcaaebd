/-!
Binary floating-point numbers of 64 bits, as exact values. A finite number is a whole number of at
most 53 bits times a power of two; a fraction is rounded to the nearest such number, and of two
equally near ones to the one with an even mantissa. Nothing here rests on machine arithmetic, so
order and rounding can be reasoned about.
-/

namespace BuildEngine.Number

/-- A binary floating-point number: `mantissa * 2 ^ exponent` with a sign, an infinity, or no
number at all. -/
inductive Binary64 where
  | finite (negative : Bool) (mantissa : Nat) (exponent : Int)
  | infinite (negative : Bool)
  | nan
  deriving Repr, DecidableEq, Inhabited

namespace Binary64

/-- The smallest exponent of two that a finite number has. -/
def minExponent : Int := -1074

/-- The largest exponent of two that a finite number has. -/
def maxExponent : Int := 971

/-- Positive zero. -/
def zero : Binary64 := finite false 0 minExponent

/-- The quotient of two naturals, to the nearest whole number and in a tie to the even one. -/
def divideToEven (dividend divisor : Nat) : Nat :=
  let quotient := dividend / divisor
  let rest := dividend % divisor
  if 2 * rest < divisor then quotient
  else if divisor < 2 * rest then quotient + 1
  else quotient + quotient % 2

/-- The number of units of `2 ^ exponent` in a fraction, rounded to even. -/
def unitsAt (dividend divisor : Nat) (exponent : Int) : Nat :=
  if exponent < 0 then divideToEven (dividend * Nat.pow 2 exponent.natAbs) divisor
  else divideToEven dividend (divisor * Nat.pow 2 exponent.natAbs)

/-- The exponent at which a positive fraction has 53 bits, or the smallest exponent. -/
def exponentFor (dividend divisor : Nat) : Int :=
  let guess : Int := (dividend.log2 : Int) - (divisor.log2 : Int) - 53
  let wide :=
    if guess < 0 then dividend * Nat.pow 2 guess.natAbs / divisor
    else dividend / (divisor * Nat.pow 2 guess.natAbs)
  max minExponent (if wide < Nat.pow 2 53 then guess else guess + 1)

/-- A fraction rounded to a number; a value beyond the largest finite one is infinite. -/
def ofRatio (negative : Bool) (dividend divisor : Nat) : Binary64 :=
  if dividend = 0 then finite negative 0 minExponent
  else
    let exponent := exponentFor dividend divisor
    let mantissa := unitsAt dividend divisor exponent
    let rounded : Nat × Int :=
      if mantissa = Nat.pow 2 53 then (Nat.pow 2 52, exponent + 1) else (mantissa, exponent)
    if maxExponent < rounded.2 then infinite negative else finite negative rounded.1 rounded.2

/-- The number nearest to an integer. -/
def ofInt (n : Int) : Binary64 :=
  ofRatio (decide (n < 0)) n.natAbs 1

/-- The number nearest to a decimal: digits times a power of ten. -/
def ofDecimal (negative : Bool) (digits : Nat) (exponent : Int) : Binary64 :=
  if exponent < 0 then ofRatio negative digits (Nat.pow 10 exponent.natAbs)
  else ofRatio negative (digits * Nat.pow 10 exponent.natAbs) 1

/-- The magnitude in units of the smallest positive number; finite numbers only. -/
def units (mantissa : Nat) (exponent : Int) : Nat :=
  mantissa * Nat.pow 2 (exponent - minExponent).toNat

/-- The signed value in units of the smallest positive number. -/
def scaled (negative : Bool) (mantissa : Nat) (exponent : Int) : Int :=
  if negative then -(units mantissa exponent : Int) else units mantissa exponent

/-- Whether one number is strictly below another. Nothing is below or above `nan`, and the two
zeros are equal. -/
def lt : Binary64 → Binary64 → Bool
  | nan, _ | _, nan => false
  | infinite a, infinite b => a && !b
  | infinite a, finite .. => a
  | finite .., infinite b => !b
  | finite a m e, finite b n f => decide (scaled a m e < scaled b n f)

theorem lt_irrefl (x : Binary64) : lt x x = false := by
  cases x with
  | finite a m e => simp [lt]
  | infinite a => cases a <;> rfl
  | nan => rfl

theorem lt_trans {x y z : Binary64} (first : lt x y = true) (second : lt y z = true) :
    lt x z = true := by
  cases x <;> cases y <;> cases z <;> simp_all [lt] <;> omega

/-- Whether two numbers have the same value; the two zeros do, and `nan` has none. -/
def same : Binary64 → Binary64 → Bool
  | nan, _ | _, nan => false
  | infinite a, infinite b => a == b
  | finite a m e, finite b n f => decide (scaled a m e = scaled b n f)
  | _, _ => false

end Binary64
end BuildEngine.Number
