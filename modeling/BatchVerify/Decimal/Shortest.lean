import BatchVerify.Decimal.Binary64

/-!
# Shortest decimal text

A floating-point number is shown with the fewest significant digits that read back as the same
number, the nearest such decimal if there are several. `Binary64.text` writes it positionally and
marks a whole number by `.0`.
-/

namespace BatchVerify.Binary64

/-- The decimals that round to `significand * 2 ^ exponent`, in quarters of the unit in the last
place: bounds, and whether they belong to it. -/
def roundingInterval (significand : Nat) (exponent : Int) : Nat × Nat × Bool :=
  let below := if significand = significandBound / 2 ∧ minExponent < exponent then 1 else 2
  (4 * significand - below, 4 * significand + 2, significand % 2 == 0)

/-- The place of the decimal point: the least `place` with `num / den < 10 ^ place`. -/
def decimalPlace (num den : Nat) : Int :=
  if den ≤ num then decimalLength (num / den)
  else
    let zeros := decimalLength den - decimalLength num
    if num * Nat.pow 10 zeros < den then -zeros else 1 - zeros

/-- A rounding interval and the number in it, over a common denominator. -/
structure Rounding where
  low : Nat
  num : Nat
  high : Nat
  den : Nat
  closed : Bool

/-- The rounding interval of `significand * 2 ^ exponent`. -/
def rounding (significand : Nat) (exponent : Int) : Rounding :=
  let (low, high, closed) := roundingInterval significand exponent
  let up := 1 <<< (exponent - 2).toNat
  ⟨low * up, 4 * significand * up, high * up, 1 <<< (2 - exponent).toNat, closed⟩

/-- The decimal `digits * 10 ^ step` lies in the interval. -/
def Rounding.contains (r : Rounding) (digits : Nat) (step : Int) : Bool :=
  let down := Nat.pow 10 (-step).toNat
  let point := digits * Nat.pow 10 step.toNat * r.den
  if r.closed then r.low * down ≤ point && point ≤ r.high * down
  else r.low * down < point && point < r.high * down

/-- The nearest decimal `digits * 10 ^ step` in the interval, if there is one. Only the two
neighbours of the number on that grid can be in it. A tie goes up. -/
def Rounding.onGrid? (r : Rounding) (step : Int) : Option Nat :=
  let num := r.num * Nat.pow 10 (-step).toNat
  let den := r.den * Nat.pow 10 step.toNat
  let floor := num / den
  let lower := r.contains floor step
  if r.contains (floor + 1) step && (!lower || den ≤ 2 * (num % den)) then some (floor + 1)
  else if lower then some floor
  else none

/-- The first decimal found on the grids from `step` downwards. -/
def Rounding.search (r : Rounding) : Nat → Int → Nat × Int
  | 0, step => (r.num * Nat.pow 10 (-step).toNat / (r.den * Nat.pow 10 step.toNat), step)
  | grids + 1, step =>
    match r.onGrid? step with
    | some digits => if digits % 10 = 0 then (digits / 10, step + 1) else (digits, step)
    | none => r.search grids (step - 1)

/-- The decimal `digits * 10 ^ step` with the fewest digits that rounds to
`significand * 2 ^ exponent`, for a positive significand. -/
def shortestDecimal (significand : Nat) (exponent : Int) : Nat × Int :=
  let r := rounding significand exponent
  r.search 17 (decimalPlace r.num r.den - 1)

/-- A decimal written out positionally. -/
def positional (digits : Nat) (exponent : Int) : String :=
  let shown := Nat.toDigits 10 digits
  if 0 ≤ exponent then String.ofList (shown ++ List.replicate exponent.toNat '0')
  else
    let places := (-exponent).toNat
    let padded := List.replicate (places + 1 - shown.length) '0' ++ shown
    let (whole, fraction) := padded.splitAt (padded.length - places)
    String.ofList (whole ++ '.' :: fraction)

/-- A number as text; a whole number ends in `.0`. -/
def text : Binary64 → String
  | .nan => "NaN"
  | .infinite negative => if negative then "-inf" else "inf"
  | .finite negative significand exponent =>
    let sign := if negative then "-" else ""
    if significand = 0 then sign ++ "0.0"
    else
      let (digits, place) := shortestDecimal significand exponent
      sign ++ positional digits place ++ (if 0 ≤ place then ".0" else "")

end BatchVerify.Binary64
