/-!
# Whole numbers of 64 bits

A text of digits with an optional sign is read from the left. The first digit that cannot be read
decides why a text is refused: it is none, or the number has left the range.
-/

namespace BatchVerify.Whole

/-- Why a text is no whole number. -/
inductive Fault where
  | empty
  | digit
  | tooLarge
  | tooSmall
  deriving DecidableEq, Repr

/-- The text of a fault. -/
def Fault.message : Fault → String
  | .empty => "cannot parse integer from empty string"
  | .digit => "invalid digit found in string"
  | .tooLarge => "number too large to fit in target type"
  | .tooSmall => "number too small to fit in target type"

/-- The number is in the range of 64 bits with a sign. -/
def InRange (n : Int) : Prop := -0x8000000000000000 ≤ n ∧ n < 0x8000000000000000

instance (n : Int) : Decidable (InRange n) := inferInstanceAs (Decidable (_ ∧ _))

/-- One more digit of a number with a given sign. -/
def append (negative : Bool) (n : Int) (c : Char) : Except Fault Int :=
  if c.isDigit then
    let digit : Int := c.toNat - '0'.toNat
    let next := if negative then n * 10 - digit else n * 10 + digit
    if InRange next then .ok next
    else .error (if negative then .tooSmall else .tooLarge)
  else .error .digit

/-- The number that a text writes. -/
def read (text : List Char) : Except Fault Int :=
  match text with
  | [] => .error .empty
  | ['+'] | ['-'] => .error .digit
  | '-' :: digits => digits.foldlM (append true) 0
  | '+' :: digits => digits.foldlM (append false) 0
  | digits => digits.foldlM (append false) 0

end BatchVerify.Whole
