import BatchVerify.Bytes

/-!
# UTF-8

`encode` writes text as bytes. `parts` reads bytes from the left into characters and strays, a
stray being a maximal subpart of an ill-formed sequence. From it come the strict reader `decode?`
and the lossy reader `decodeLossy`, which writes U+FFFD for each stray.
-/

namespace BatchVerify.Utf8

/-- The bytes of a text. -/
def encode (text : String) : Bytes := text.toList.flatMap String.utf8EncodeChar

/-- What a reader of bytes meets next: a character, or bytes that belong to none. -/
inductive Part where
  | char (c : Char)
  | stray (bytes : Bytes)
  deriving DecidableEq, Repr

/-- A byte `10xxxxxx` continues a sequence. -/
def continues (b : UInt8) : Bool := 0x80 ≤ b && b < 0xC0

/-- The second byte of a three-byte sequence: no overlong forms after E0, no surrogates after ED. -/
def secondOfThree (lead b : UInt8) : Bool :=
  if lead = 0xE0 then 0xA0 ≤ b && b < 0xC0
  else if lead = 0xED then 0x80 ≤ b && b < 0xA0
  else continues b

/-- The second byte of a four-byte sequence: no overlong forms after F0, nothing beyond U+10FFFF
after F4. -/
def secondOfFour (lead b : UInt8) : Bool :=
  if lead = 0xF0 then 0x90 ≤ b && b < 0xC0
  else if lead = 0xF4 then 0x80 ≤ b && b < 0x90
  else continues b

/-- The character whose bits are the low `width` bits of the lead byte, then six of each byte that
continues it. -/
def character (width : Nat) (lead : UInt8) (tail : Bytes) : Char :=
  Char.ofNat (tail.foldl (fun bits b => bits * 64 + b.toNat % 64) (lead.toNat % (1 <<< width)))

/-- The characters and strays of a byte sequence, in order. -/
def parts : Bytes → List Part
  | [] => []
  | a :: rest =>
    if a < 0x80 then .char (Char.ofNat a.toNat) :: parts rest
    else if 0xC2 ≤ a && a < 0xE0 then
      match rest with
      | [] => [.stray [a]]
      | b :: rest =>
        if continues b then .char (character 5 a [b]) :: parts rest
        else .stray [a] :: parts (b :: rest)
    else if 0xE0 ≤ a && a < 0xF0 then
      match rest with
      | [] => [.stray [a]]
      | b :: rest =>
        if secondOfThree a b then
          match rest with
          | [] => [.stray [a, b]]
          | c :: rest =>
            if continues c then .char (character 4 a [b, c]) :: parts rest
            else .stray [a, b] :: parts (c :: rest)
        else .stray [a] :: parts (b :: rest)
    else if 0xF0 ≤ a && a < 0xF5 then
      match rest with
      | [] => [.stray [a]]
      | b :: rest =>
        if secondOfFour a b then
          match rest with
          | [] => [.stray [a, b]]
          | c :: rest =>
            if continues c then
              match rest with
              | [] => [.stray [a, b, c]]
              | d :: rest =>
                if continues d then .char (character 3 a [b, c, d]) :: parts rest
                else .stray [a, b, c] :: parts (d :: rest)
            else .stray [a, b] :: parts (c :: rest)
        else .stray [a] :: parts (b :: rest)
    else .stray [a] :: parts rest

/-- The character of a part that is one. -/
def Part.char? : Part → Option Char
  | .char c => some c
  | .stray _ => none

/-- The bytes that a part was read from. -/
def Part.bytes : Part → Bytes
  | .char c => String.utf8EncodeChar c
  | .stray bytes => bytes

/-- The character that stands for a stray. -/
def replacement : Char := '\uFFFD'

/-- Reads every byte sequence, each stray as one U+FFFD. -/
def decodeLossy (bytes : Bytes) : String :=
  String.ofList ((parts bytes).map fun part => part.char?.getD replacement)

/-- The text that the bytes encode, if no byte is stray. -/
def decode? (bytes : Bytes) : Option String :=
  ((parts bytes).mapM Part.char?).map String.ofList

end BatchVerify.Utf8
