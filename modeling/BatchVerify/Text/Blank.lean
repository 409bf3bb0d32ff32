import BatchVerify.Pieces

/-!
# Blank characters and lines

The blank characters are those with the Unicode property White_Space. `trim` removes them from
both ends of a text, and `lastLine?` finds the last line that holds anything else.
-/

namespace BatchVerify.Text

/-- The Unicode property White_Space. -/
def isBlank (c : Char) : Bool :=
  let n := c.toNat
  (0x09 ≤ n && n ≤ 0x0D) || n == 0x20 || n == 0x85 || n == 0xA0 || n == 0x1680 ||
    (0x2000 ≤ n && n ≤ 0x200A) || n == 0x2028 || n == 0x2029 || n == 0x202F || n == 0x205F ||
    n == 0x3000

/-- A text without its leading blanks. -/
def trimStart (text : List Char) : List Char := text.dropWhile isBlank

/-- A text without its trailing blanks. -/
def trimEnd (text : List Char) : List Char := (text.reverse.dropWhile isBlank).reverse

/-- A text without the blanks at its two ends. -/
def trim (text : List Char) : List Char := trimEnd (trimStart text)

/-- The pieces between line ends; a carriage return before one counts as a blank of its line. -/
def lines (text : List Char) : List (List Char) := Pieces.split '\n' text

/-- The last line with a character that is not blank, trimmed. -/
def lastLine? (text : List Char) : Option (List Char) :=
  ((lines text).reverse.find? fun line => line.any fun c => !isBlank c).map trim

/-- Every character that core counts as white space is blank. -/
theorem isBlank_of_isWhitespace {c : Char} (h : c.isWhitespace = true) : isBlank c = true := by
  simp only [Char.isWhitespace, Bool.or_eq_true, decide_eq_true_eq] at h
  rcases h with ((h | h) | h) | h <;> subst h <;> decide

end BatchVerify.Text
