import BatchVerify.Json.Basic

/-!
# Reading JSON

A text is read as one value with blanks between its parts. Fractions and exponents are not read:
numbers are whole.
-/

namespace BatchVerify.Json

/-- A character that may stand between the parts of a text. -/
def isGap (c : Char) : Bool := c = ' ' || c = '\n' || c = '\r' || c = '\t'

/-- A text from its first character that is no gap. -/
def skipGap (text : List Char) : List Char := text.dropWhile isGap

/-- The value of a hexadecimal digit. -/
def hexValue? (c : Char) : Option Nat :=
  if c.isDigit then some (c.toNat - '0'.toNat)
  else if 'a' ≤ c ∧ c ≤ 'f' then some (c.toNat - 'a'.toNat + 10)
  else if 'A' ≤ c ∧ c ≤ 'F' then some (c.toNat - 'A'.toNat + 10)
  else none

/-- The number that hexadecimal digits write. -/
def hexNumber? (digits : List Char) : Option Nat :=
  digits.foldlM (fun n c => (hexValue? c).map fun digit => n * 16 + digit) 0

/-- The character of a code point that is one. -/
def codePoint? (n : Nat) : Option Char := if n.isValidChar then some (Char.ofNat n) else none

/-- The code point that two halves write. -/
def joinHalves? (high low : Nat) : Option Char :=
  if 0xD800 ≤ high ∧ high < 0xDC00 ∧ 0xDC00 ≤ low ∧ low < 0xE000 then
    codePoint? (0x10000 + (high - 0xD800) * 0x400 + (low - 0xDC00))
  else none

/-- The character that a letter after a backslash stands for. -/
def unescape? (c : Char) : Option Char :=
  [ ('"', '"'), ('\\', '\\'), ('/', '/'), ('b', '\x08'), ('f', '\x0c'), ('n', '\n'), ('r', '\r'),
    ('t', '\t') ].lookup c

/-- A string from after its opening quote, and the text after its closing quote. -/
def readString : List Char → Option (List Char × List Char)
  | [] => none
  | '"' :: rest => some ([], rest)
  | '\\' :: 'u' :: a :: b :: c :: d :: rest =>
    match (hexNumber? [a, b, c, d]).bind codePoint?, rest with
    | some char, rest => (readString rest).map fun (chars, rest) => (char :: chars, rest)
    | none, '\\' :: 'u' :: e :: f :: g :: h :: rest => do
      let char ← joinHalves? (← hexNumber? [a, b, c, d]) (← hexNumber? [e, f, g, h])
      let (chars, rest) ← readString rest
      some (char :: chars, rest)
    | none, _ => none
  | '\\' :: c :: rest => do
    let char ← unescape? c
    let (chars, rest) ← readString rest
    some (char :: chars, rest)
  | c :: rest =>
    if c.toNat < 0x20 then none else (readString rest).map fun (chars, rest) => (c :: chars, rest)

/-- The number that decimal digits write; none has a zero in front. -/
def decimal? (digits : List Char) : Option Nat :=
  match digits with
  | [] => none
  | '0' :: _ :: _ => none
  | digits => some (digits.foldl (fun n c => n * 10 + (c.toNat - '0'.toNat)) 0)

/-- A whole number and the text after it. -/
def readInteger (text : List Char) : Option (Int × List Char) :=
  match text with
  | '-' :: rest =>
    (decimal? (rest.takeWhile Char.isDigit)).map fun n => (-n, rest.dropWhile Char.isDigit)
  | rest => (decimal? (rest.takeWhile Char.isDigit)).map fun n => (n, rest.dropWhile Char.isDigit)

mutual

/-- A value and the text after it; `depth` bounds the parts it may have. -/
def readValue : (depth : Nat) → List Char → Option (Json × List Char)
  | 0, _ => none
  | depth + 1, text =>
    match skipGap text with
    | 'n' :: 'u' :: 'l' :: 'l' :: rest => some (.null, rest)
    | '"' :: rest =>
      (readString rest).map fun (chars, rest) => (.string (String.ofList chars), rest)
    | '[' :: rest =>
      match skipGap rest with
      | ']' :: rest => some (.array [], rest)
      | rest => do
        let (item, rest) ← readValue depth rest
        let (items, rest) ← readItems depth rest
        some (.array (item :: items), rest)
    | '\x7b' :: rest =>
      match skipGap rest with
      | '\x7d' :: rest => some (.object [], rest)
      | rest => do
        let (field, rest) ← readField depth rest
        let (fields, rest) ← readFields depth rest
        some (.object (field :: fields), rest)
    | rest => (readInteger rest).map fun (value, rest) => (.integer value, rest)

/-- The items after the first, up to the closing bracket. -/
def readItems : (depth : Nat) → List Char → Option (List Json × List Char)
  | 0, _ => none
  | depth + 1, text =>
    match skipGap text with
    | ']' :: rest => some ([], rest)
    | ',' :: rest => do
      let (item, rest) ← readValue depth rest
      let (items, rest) ← readItems depth rest
      some (item :: items, rest)
    | _ => none

/-- A name with its value. -/
def readField : (depth : Nat) → List Char → Option ((String × Json) × List Char)
  | 0, _ => none
  | depth + 1, text =>
    match skipGap text with
    | '"' :: rest => do
      let (name, rest) ← readString rest
      match skipGap rest with
      | ':' :: rest =>
        let (value, rest) ← readValue depth rest
        some ((String.ofList name, value), rest)
      | _ => none
    | _ => none

/-- The fields after the first, up to the closing brace. -/
def readFields : (depth : Nat) → List Char → Option (List (String × Json) × List Char)
  | 0, _ => none
  | depth + 1, text =>
    match skipGap text with
    | '\x7d' :: rest => some ([], rest)
    | ',' :: rest => do
      let (field, rest) ← readField depth rest
      let (fields, rest) ← readFields depth rest
      some (field :: fields, rest)
    | _ => none

end

/-- The value that a whole text writes. A value has no more parts than its text has characters. -/
def parse? (text : String) : Option Json :=
  match readValue (2 * text.length + 2) text.toList with
  | some (value, rest) => if skipGap rest = [] then some value else none
  | none => none

end BatchVerify.Json
