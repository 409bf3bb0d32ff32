import BatchVerify.Text.Blank

/-!
# The smallest parts of a pattern

A pattern is read under switches, which it may set itself. They decide whether blanks count, and
which characters and escapes it may hold. A filter knows no tables of characters beyond ASCII, so
it takes a part that needs one only while the switch to Unicode is off.
-/

namespace BatchVerify.Log.Pattern

/-- What a pattern may switch, as far as it decides whether the pattern is taken. -/
structure Switches where
  /-- Blanks and comments do not count. -/
  spaced : Bool := false
  /-- A letter stands for both its cases. -/
  caseless : Bool := false
  /-- A part stands for Unicode characters; else for bytes. -/
  unicode : Bool := true
  deriving DecidableEq, Repr

/-- What follows blanks and comments. A comment reaches from `#` to the end of its line. -/
def afterBlanks (inComment : Bool) : List Char → List Char
  | [] => []
  | c :: rest =>
    if inComment then afterBlanks (c ≠ '\n') rest
    else if Text.isBlank c then afterBlanks false rest
    else if c = '#' then afterBlanks true rest
    else c :: rest

/-- The smallest part of a pattern. -/
inductive Lexeme where
  /-- A character; one that two digits spell stands for a byte if parts do. -/
  | literal (c : Char) (spelled : Bool)
  /-- Any character, `.`. -/
  | any
  /-- The beginning or the end of a line or of the text. -/
  | edge
  /-- The edge of a word, or no edge. -/
  | wordEdge
  /-- The characters of a kind, such as `\d`, or all others. -/
  | kind (negated : Bool)
  deriving DecidableEq, Repr

/-- The number that digits in base 16 write. -/
def hexNumber (digits : List Char) : Nat :=
  digits.foldl (fun n c =>
    n * 16 + (if c.isDigit then c.toNat - '0'.toNat else c.toLower.toNat - 'a'.toNat + 10)) 0

/-- A digit in base 16. -/
def isHexDigit (c : Char) : Bool := c.isDigit || ('a' ≤ c.toLower && c.toLower ≤ 'f')

/-- How many digits spell a character after a letter. -/
def hexLengths : List (Char × Nat) := [('x', 2), ('u', 4), ('U', 8)]

/-- The characters that letters stand for after a backslash. -/
def controls : List (Char × Char) :=
  [('a', '\x07'), ('f', '\x0c'), ('t', '\t'), ('n', '\n'), ('r', '\r'), ('v', '\x0b')]

namespace Switches

/-- The text that is left to read: without blanks and comments at its start if they do not
count. -/
def skip (s : Switches) (text : List Char) : List Char :=
  if s.spaced then afterBlanks false text else text

/-- A number of digits in base 16. -/
def hexDigits? (s : Switches) : Nat → List Char → Option (List Char × List Char)
  | 0, text => some ([], s.skip text)
  | n + 1, text =>
    match s.skip text with
    | c :: rest =>
      if isHexDigit c then (s.hexDigits? n rest).map fun (digits, rest) => (c :: digits, rest)
      else none
    | [] => none

/-- What a backslash and the text after it stand for. A letter or a digit stands for nothing but
what is listed here, and any other character of ASCII for itself. -/
def escape? (s : Switches) : List Char → Option (Lexeme × List Char)
  | [] => none
  | c :: rest =>
    match hexLengths.lookup c, controls.lookup c with
    | some length, _ => do
      let (digits, rest) ← s.hexDigits? length rest
      let n := hexNumber digits
      if n.isValidChar then some (.literal (Char.ofNat n) (length = 2), rest) else none
    | none, some control => some (.literal control false, rest)
    | none, none =>
      if c ∈ ['d', 's', 'w'] then some (.kind false, rest)
      else if c ∈ ['D', 'S', 'W'] then some (.kind true, rest)
      else if c ∈ ['A', 'z'] then some (.edge, rest)
      else if c ∈ ['b', 'B', '<', '>'] then some (.wordEdge, rest)
      else if c.toNat < 0x80 && !c.isAlphanum then some (.literal c false, rest)
      else none

/-- A part that stands outside of brackets can be taken. -/
def takes (s : Switches) : Lexeme → Bool
  | .literal c spelled => if s.unicode then !s.caseless else !(spelled && 0x7F < c.toNat)
  | .any => s.unicode
  | .edge => true
  | .wordEdge => !s.unicode
  | .kind negated => !s.unicode && !negated

/-- A part that stands between brackets can be taken. -/
def takesMember (s : Switches) : Lexeme → Bool
  | .literal c _ => if s.unicode then !s.caseless else c.toNat ≤ 0x7F
  | .kind negated => !s.unicode && !negated
  | _ => false

end Switches

end BatchVerify.Log.Pattern
