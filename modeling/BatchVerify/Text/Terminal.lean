import BatchVerify.Bytes

/-!
# Control sequences of terminals

Texts may hold sequences that a terminal obeys and does not show. `plain` removes them, as for a
reader that is no terminal. `harmless` shows the characters that begin or end them instead, as for
a log that may be read on a terminal.
-/

namespace BatchVerify.Terminal

/-- The byte that begins a control sequence. -/
def escape : UInt8 := 0x1B

/-- What a terminal is reading. -/
inductive Mode where
  /-- Text. -/
  | text
  /-- A character of several bytes: the next is one of them, and so are some after it. -/
  | character (more : Nat)
  /-- What follows an escape. -/
  | escape
  /-- A longer escape, after the bytes between. -/
  | longEscape
  /-- The parameters of a control function, after `[`. -/
  | control
  /-- The beginning of a device control string, after `P`. -/
  | device
  /-- The parameters of a device control string. -/
  | deviceParameters
  /-- The bytes between the parameters of a device control string and its function. -/
  | deviceBetween
  /-- A string up to a byte that closes it. -/
  | string
  /-- A command to the system up to a bell, after `]`. -/
  | command
  deriving DecidableEq, Repr

/-- Blanks that are shown wherever text or a short sequence is read: the space and four controls,
as far as a sequence does not take them. -/
def isSpacing (b : UInt8) : Bool := b = 0x09 || b = 0x0A || b = 0x0C || b = 0x0D || b = 0x20

namespace Mode

/-- How many bytes of a character come after its first two. -/
def afterSecond (lead : UInt8) : Nat := if lead < 0xE0 then 0 else if lead < 0xF0 then 1 else 2

/-- Reads a byte of text: the mode after it, and whether it is shown. -/
def readText (b : UInt8) : Mode × Bool :=
  if 0xC2 ≤ b && b < 0xF5 then (.character (afterSecond b), true)
  else (.text, (0x20 ≤ b && b < 0x7F) || isSpacing b)

/-- The mode after a byte that is neither a control nor the first of a new sequence. -/
def afterByte (mode : Mode) (b : UInt8) : Mode :=
  match mode with
  | .text | .character _ => .text
  | .escape =>
    if b < 0x30 then .longEscape
    else if b = 0x5B then .control
    else if b = 0x5D then .command
    else if b = 0x50 then .device
    else if b = 0x58 || b = 0x5E || b = 0x5F then .string
    else if b < 0x7F then .text
    else .escape
  | .longEscape => if 0x30 ≤ b && b < 0x7F then .text else .longEscape
  | .control => if 0x40 ≤ b && b < 0x7F then .text else .control
  | .device =>
    if b < 0x30 then .deviceBetween
    else if b < 0x40 then .deviceParameters
    else if b < 0x7F then .string
    else .device
  | .deviceParameters =>
    if b < 0x30 then .deviceBetween
    else if b < 0x3C then .deviceParameters
    else if b < 0x7F then .string
    else .deviceParameters
  | .deviceBetween => if 0x30 ≤ b && b < 0x7F then .string else .deviceBetween
  | .string => if b = 0x9C then .text else .string
  | .command => .command

/-- A sequence that spacing controls interrupt. -/
def isShort : Mode → Bool
  | .escape | .longEscape | .control => true
  | _ => false

end Mode

/-- How far a terminal has read. -/
structure Screen where
  mode : Mode := .text
  /-- The sequence is interrupted: text is shown, and after it the sequence goes on. -/
  paused : Bool := false
  deriving DecidableEq, Repr

namespace Screen

/-- Reads a byte outside of an interruption: what is read after it, and whether it is shown. Some
controls end every sequence. -/
def readOn (mode : Mode) (b : UInt8) : Screen × Bool :=
  if b = Terminal.escape then ({ mode := .escape }, false)
  else if b = 0x18 || b = 0x1A then ({}, false)
  else if mode = .text then
    let (mode, shown) := Mode.readText b
    ({ mode }, shown)
  else if b < 0x20 then
    if mode.isShort && isSpacing b then ({ mode, paused := true }, true)
    else ({ mode := if mode = .command && b = 0x07 then .text else mode }, false)
  else ({ mode := mode.afterByte b }, false)

/-- Reads a byte: what is read after it, and whether it is shown. A character of several bytes
puts an end to a sequence that is interrupted. -/
def read (screen : Screen) (b : UInt8) : Screen × Bool :=
  match screen.mode with
  | .character 0 => ({}, true)
  | .character (more + 1) => ({ mode := .character more }, true)
  | mode =>
    match screen.paused, Mode.readText b with
    | true, (.text, true) => (screen, true)
    | true, (character, true) => ({ mode := character }, true)
    | _, _ => readOn mode b

/-- The bytes of a text that are shown. -/
def shown (screen : Screen) : Bytes → Bytes
  | [] => []
  | b :: rest =>
    let (next, visible) := screen.read b
    if visible then b :: next.shown rest else next.shown rest

end Screen

/-- A text without its control sequences, and without controls that are not spacing. -/
def plain (bytes : Bytes) : Bytes := Screen.shown {} bytes

/-- A text that stands out on a terminal. -/
def emphasized (text : String) : String := "\x1B[1m" ++ text ++ "\x1B[0m"

/-- A character that could steer a terminal, written by its number. -/
def harmless (c : Char) : List Char :=
  if c ∈ ['\x07', '\x08', '\x0C', '\x1B', '\x7F'] then
    let digits := Nat.toDigits 16 c.toNat
    ['\\', 'x'] ++ List.replicate (2 - digits.length) '0' ++ digits
  else if 0x80 ≤ c.toNat ∧ c.toNat < 0xA0 then
    ['\\', 'u', '\x7b'] ++ Nat.toDigits 16 c.toNat ++ ['\x7d']
  else [c]

end BatchVerify.Terminal
