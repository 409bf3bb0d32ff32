import BatchVerify.Text.Printable
import BatchVerify.Text.Utf8

/-!
# Quoted text

A text is shown between double quotes with every character that is not printable escaped; bytes
that are not part of a character are shown by their value.
-/

namespace BatchVerify.Text

/-- The digits of a number in base 16, at least `width` of them. -/
def hexDigits (width : Nat) (digits : List Char) : List Char :=
  List.replicate (width - digits.length) '0' ++ digits

/-- A character as it appears between quotes. -/
def quoteChar (c : Char) : List Char :=
  if c = '\x00' then ['\\', '0']
  else if c = '\t' then ['\\', 't']
  else if c = '\r' then ['\\', 'r']
  else if c = '\n' then ['\\', 'n']
  else if c = '\\' then ['\\', '\\']
  else if c = '"' then ['\\', '"']
  else if isPrintable c then [c]
  else ['\\', 'u', '\x7b'] ++ Nat.toDigits 16 c.toNat ++ ['\x7d']

/-- A text between quotes. -/
def quote (text : String) : String :=
  String.ofList ('"' :: text.toList.flatMap quoteChar ++ ['"'])

/-- The escape of a byte that belongs to no character: two upper-case digits. -/
def quoteByte (b : UInt8) : List Char :=
  ['\\', 'x'] ++ hexDigits 2 ((Nat.toDigits 16 b.toNat).map Char.toUpper)

/-- A byte sequence between quotes: its text, and its strays byte by byte. -/
def quoteBytes (bytes : Bytes) : String :=
  String.ofList <| '"' :: (Utf8.parts bytes).flatMap (fun
    | .char c => quoteChar c
    | .stray bytes => bytes.flatMap quoteByte) ++ ['"']

end BatchVerify.Text
