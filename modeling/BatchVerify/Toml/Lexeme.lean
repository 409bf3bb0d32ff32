import BatchVerify.Toml.Reader

/-!
# Lexemes

The smallest meaningful parts of a TOML text: blanks, comments and line ends, quoted and bare
strings, keys, numbers, dates and times.
-/

namespace BatchVerify.Toml.Lexeme

open Reader

/-! ## Blanks, comments, line ends -/

/-- A space or a tab. -/
def isSpace (c : Char) : Bool := c == ' ' || c == '\t'

/-- A character that a comment may hold: no control but the tab. -/
def isCommentChar (c : Char) : Bool := c == '\t' || (0x20 ≤ c.toNat && c.toNat != 0x7F)

/-- Spaces and tabs, perhaps none. -/
def spaces : Reader Unit := do let _ ← takeWhile isSpace

/-- A line end: LF, or CR and LF. -/
def newline : Reader Unit := char '\n' <|> exactly ['\r', '\n']

/-- A comment up to the end of its line. -/
def comment : Reader Unit := do
  char '#'
  let _ ← takeWhile isCommentChar

/-- What may follow on a line after its content. -/
def lineEnd : Reader Unit := do
  spaces
  let _ ← optional comment
  newline <|> atEnd

/-- What may stand between the items of an array: blanks, and comments that end their line. -/
def gap : Reader Unit := do
  let _ ← many ((do let _ ← takeWhile1 isSpace) <|> (do let _ ← optional comment; newline))

/-! ## Strings -/

/-- The character with a number, if there is one. -/
def scalar? (n : Nat) : Option Char := if h : n.isValidChar then some (Char.ofNatAux n h) else none

/-- The value of a digit in a base of at most sixteen. -/
def digitValue? (base : Nat) (c : Char) : Option Nat :=
  let value :=
    if '0' ≤ c && c ≤ '9' then c.toNat - 48
    else if 'a' ≤ c && c ≤ 'f' then c.toNat - 87
    else if 'A' ≤ c && c ≤ 'F' then c.toNat - 55
    else 16
  if value < base then some value else none

/-- The character is a digit in a base. -/
def isDigit (base : Nat) (c : Char) : Bool := (digitValue? base c).isSome

/-- The number that digits write. -/
def digitsValue (base : Nat) (digits : List Char) : Nat :=
  digits.foldl (fun n c => n * base + (digitValue? base c).getD 0) 0

/-- The character that stands for what follows a backslash. -/
def escape : Reader Char := do
  char '\\'
  let mark ← satisfy fun _ => true
  match mark with
  | 'b' => return '\x08'
  | 't' => return '\t'
  | 'n' => return '\n'
  | 'f' => return '\x0c'
  | 'r' => return '\r'
  | '"' => return '"'
  | '\\' => return '\\'
  | 'u' => guarded (count (isDigit 16) 4) fun digits => scalar? (digitsValue 16 digits)
  | 'U' => guarded (count (isDigit 16) 8) fun digits => scalar? (digitsValue 16 digits)
  | _ => failure

/-- A character that may stand for itself between double quotes. -/
def isBasicChar (c : Char) : Bool := isCommentChar c && c != '"' && c != '\\'

/-- A character that may stand for itself between single quotes. -/
def isLiteralChar (c : Char) : Bool := isCommentChar c && c != '\x27'

/-- A string between double quotes, on one line. -/
def basicString : Reader String := do
  char '"'
  let body ← many (satisfy isBasicChar <|> escape)
  char '"'
  return String.ofList body

/-- A string between single quotes, on one line, without escapes. -/
def literalString : Reader String := do
  char '\x27'
  let body ← takeWhile isLiteralChar
  char '\x27'
  return String.ofList body

/-- Three of one quote. -/
def tripled (quote : Char) : Reader Unit := exactly [quote, quote, quote]

/-- One or two quotes that do not end the string they are in. -/
def innerQuotes (quote : Char) : Reader (List Char) :=
  let closed (n : Nat) : Reader (List Char) := do
    exactly (List.replicate n quote)
    lookahead (satisfy (· != quote))
    return List.replicate n quote
  closed 2 <|> closed 1

/-- The end of a string in triple quotes, with one or two quotes more that belong to it. -/
def closingQuotes (quote : Char) : Reader (List Char) :=
  let extra (n : Nat) : Reader (List Char) := do
    exactly (List.replicate n quote)
    tripled quote
    return List.replicate n quote
  extra 2 <|> extra 1 <|> extra 0

/-- A string in triple quotes with its pieces. A line end right after the opening is not part of
it. -/
def multiline (quote : Char) (piece : Reader (List Char)) : Reader String := do
  tripled quote
  let _ ← optional newline
  let body ← many (piece <|> innerQuotes quote)
  let last ← closingQuotes quote
  return String.ofList (body.flatten ++ last)

/-- A backslash at the end of a line: it and all blanks and line ends after it count for
nothing. -/
def continuedLine : Reader (List Char) := do
  char '\\'
  spaces
  newline
  let _ ← many ((do let _ ← takeWhile1 isSpace) <|> newline)
  return []

/-- A line end inside a string, always one LF. -/
def innerNewline : Reader (List Char) := do newline; return ['\n']

/-- A string in triple double quotes. -/
def multilineBasic : Reader String :=
  multiline '"' <|
    takeWhile1 isBasicChar <|> continuedLine <|> (do return [← escape]) <|> innerNewline

/-- A string in triple single quotes. -/
def multilineLiteral : Reader String :=
  multiline '\x27' (takeWhile1 isLiteralChar <|> innerNewline)

/-- A string value. -/
def string : Reader String :=
  multilineBasic <|> basicString <|> multilineLiteral <|> literalString

/-! ## Keys -/

/-- A character of a bare key. -/
def isBareChar (c : Char) : Bool :=
  ('a' ≤ c && c ≤ 'z') || ('A' ≤ c && c ≤ 'Z') || ('0' ≤ c && c ≤ '9') || c == '-' || c == '_'

/-- A key without dots. -/
def simpleKey : Reader Key := do
  let (name, span) ← spanned <|
    basicString <|> literalString <|> (do return String.ofList (← takeWhile1 isBareChar))
  return ⟨name, span⟩

/-- The most parts that a dotted key has. -/
def maxKeyParts : Nat := 79

/-- A key with its parts between dots. -/
def dottedKey : Reader (List Key) :=
  guarded
    (separated (do spaces; let key ← simpleKey; spaces; return key) (char '.'))
    fun keys => if keys.length ≤ maxKeyParts then some keys else none

/-! ## Numbers -/

/-- Digits with single underscores between them. -/
def underscored (base : Nat) : Reader (List Char) := do
  let first ← satisfy (isDigit base)
  let later ← many (satisfy (isDigit base) <|> (do char '_'; satisfy (isDigit base)))
  return first :: later

/-- An optional sign: `true` for a minus. -/
def sign : Reader Bool := (do char '-'; return true) <|> (do char '+'; return false) <|> pure false

/-- Decimal digits without a leading zero. -/
def plainDigits : Reader (List Char) :=
  guarded (underscored 10) (fun digits => if digits.head? = some '0' then none else some digits) <|>
    (do char '0'; return ['0'])

/-- The whole numbers of 64 bits. -/
def ofInt64? (n : Int) : Option Int :=
  if -0x8000000000000000 ≤ n ∧ n < 0x8000000000000000 then some n else none

/-- A whole number with a base mark. -/
def markedInteger (mark : Char) (base : Nat) : Reader Int :=
  guarded (do exactly ['0', mark]; underscored base) fun digits =>
    ofInt64? (digitsValue base digits)

/-- A whole number. -/
def integer : Reader Int :=
  markedInteger 'x' 16 <|> markedInteger 'o' 8 <|> markedInteger 'b' 2 <|>
  guarded (do return (← sign, ← plainDigits)) fun (negative, digits) =>
    ofInt64? (if negative then -(digitsValue 10 digits : Int) else digitsValue 10 digits)

/-- The exponent of a floating-point number. -/
def exponent : Reader Int := do
  let _ ← satisfy fun c => c == 'e' || c == 'E'
  let negative ← sign
  let digits ← underscored 10
  return if negative then -(digitsValue 10 digits : Int) else digitsValue 10 digits

/-- The digits after a decimal point. -/
def fraction : Reader (List Char) := do char '.'; underscored 10

/-- A floating-point number; one beyond the greatest is refused, one below the least is not. -/
def decimal : Reader Binary64 :=
  guarded (do
    let negative ← sign
    let whole ← plainDigits
    let (places, shift) ←
      (do let shift ← exponent; return ([], shift)) <|>
      (do let places ← fraction; return (places, (← optional exponent).getD 0))
    return Binary64.ofDecimal negative (digitsValue 10 (whole ++ places)) (shift - places.length))
    fun number => if number = .infinite false then none else some number

/-- An infinity or what is not a number. -/
def special : Reader Binary64 := do
  let negative ← sign
  (do exactly ['i', 'n', 'f']; return .infinite negative) <|>
    (do exactly ['n', 'a', 'n']; return .nan)

/-! ## Dates and times -/

/-- A number of a given count of digits between two bounds. -/
def field (digits low high : Nat) : Reader Nat :=
  guarded (count (isDigit 10) digits) fun ds =>
    let n := digitsValue 10 ds
    if low ≤ n ∧ n ≤ high then some n else none

/-- The number of days of a month. -/
def daysOfMonth (year month : Nat) : Nat :=
  if month = 2 then if year % 4 = 0 ∧ (year % 100 ≠ 0 ∨ year % 400 = 0) then 29 else 28
  else if month = 4 ∨ month = 6 ∨ month = 9 ∨ month = 11 then 30
  else 31

/-- A date that exists. -/
def date : Reader Unit := do
  let year ← field 4 0 9999
  char '-'
  let month ← field 2 1 12
  char '-'
  let _ ← field 2 1 (daysOfMonth year month)

/-- A time of day; a minute may have a leap second. -/
def time : Reader Unit := do
  let _ ← field 2 0 23
  char ':'
  let _ ← field 2 0 59
  char ':'
  let _ ← field 2 0 60
  let _ ← optional (do char '.'; takeWhile1 (isDigit 10))

/-- The distance from universal time. -/
def offset : Reader Unit :=
  (do let _ ← satisfy fun c => c == 'Z' || c == 'z') <|> do
    let _ ← satisfy fun c => c == '+' || c == '-'
    let _ ← field 2 0 23
    char ':'
    let _ ← field 2 0 59

/-- A date, a time, or both. -/
def moment : Reader Unit :=
  (do
    date
    let _ ← optional do
      let _ ← satisfy fun c => c == 'T' || c == 't' || c == ' '
      time
      optional offset) <|>
  time

end BatchVerify.Toml.Lexeme
