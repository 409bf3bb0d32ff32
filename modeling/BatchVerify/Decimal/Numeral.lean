/-!
# Numerals

The texts that write a number of any kind: digits with at most one point among them, a sign before
and an exponent after them, or the name of what is no finite number.
-/

namespace BatchVerify.Numeral

/-- A text without the sign at its start. -/
def unsigned : List Char → List Char
  | '+' :: rest | '-' :: rest => rest
  | text => text

/-- Digits, and at least one of them. -/
def isDigits (text : List Char) : Bool := !text.isEmpty && text.all Char.isDigit

/-- Digits with at most one point before, among or after them. -/
def isMantissa (text : List Char) : Bool := isDigits (text.erase '.')

/-- The names of infinity and of what is no number, in small letters. -/
def names : List String := ["inf", "infinity", "nan"]

/-- A text writes a number; the case of letters does not count. -/
def isNumeral (text : List Char) : Bool :=
  let text := (unsigned text).map Char.toLower
  let mantissa := text.takeWhile (· ≠ 'e')
  String.ofList text ∈ names ||
    (isMantissa mantissa &&
      match text.dropWhile (· ≠ 'e') with
      | [] => true
      | _ :: exponent => isDigits (unsigned exponent))

end BatchVerify.Numeral
