/-!
# Binary floating-point numbers

The finite numbers of 53 significant bits are pairs of a significand and a binary exponent.
`Binary64.ofDecimal` takes a decimal number to the nearest of them, and a number halfway between
two to the one with the even significand. All arithmetic is on natural numbers.
-/

namespace BatchVerify

/-- A floating-point number; a finite one has the magnitude `significand * 2 ^ exponent`. -/
inductive Binary64 where
  | nan
  | infinite (negative : Bool)
  | finite (negative : Bool) (significand : Nat) (exponent : Int)
  deriving DecidableEq, Repr

namespace Binary64

/-- The least binary exponent of a finite number. -/
def minExponent : Int := -1074

/-- The greatest binary exponent of a finite number. -/
def maxExponent : Int := 971

/-- The quotient to the nearest whole number, halves to the even one. -/
def roundDiv (num den : Nat) : Nat :=
  let whole := num / den
  let twice := 2 * (num % den)
  if twice < den then whole
  else if den < twice then whole + 1
  else whole + whole % 2

/-- The number of decimal digits of a natural number. -/
def decimalLength (n : Nat) : Nat := (Nat.toDigits 10 n).length

/-- All significands are below this, and those of numbers that are not tiny reach half of it. -/
def significandBound : Nat := 0x20000000000000

/-- The finite number nearest to `num / den`, where both are positive. -/
def ofRatio (negative : Bool) (num den : Nat) : Binary64 :=
  let guess : Int := Nat.log2 num - Nat.log2 den - 53
  let low := max guess minExponent
  let scaled (exponent : Int) : Nat × Nat := (num <<< (-exponent).toNat, den <<< exponent.toNat)
  let (top, bottom) := scaled low
  let exponent := if significandBound ≤ top / bottom then low + 1 else low
  let (top, bottom) := scaled exponent
  let significand := roundDiv top bottom
  let (significand, exponent) :=
    if significand = significandBound then (significandBound / 2, exponent + 1)
    else (significand, exponent)
  if maxExponent < exponent then .infinite negative else .finite negative significand exponent

/-- The number nearest to `digits * 10 ^ exponent`. Magnitudes far outside the range are settled
by their decimal length alone. -/
def ofDecimal (negative : Bool) (digits : Nat) (exponent : Int) : Binary64 :=
  let length := (decimalLength digits : Int) + exponent
  if digits = 0 ∨ length < -330 then .finite negative 0 minExponent
  else if 310 < length then .infinite negative
  else ofRatio negative (digits * Nat.pow 10 exponent.toNat) (Nat.pow 10 (-exponent).toNat)

end Binary64

end BatchVerify
