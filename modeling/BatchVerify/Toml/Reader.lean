import BatchVerify.Toml.Node

/-!
# Reading a text from the left

A reader takes something off the front of a text, or fails and leaves the text as it was. Every
repetition is bounded by the length of the text that is left.
-/

namespace BatchVerify.Toml

/-- The text that is left to read and how many characters were read before it. -/
structure Cursor where
  position : Nat
  rest : List Char

/-- A step that takes an `α` off the front of a text. -/
abbrev Reader := StateT Cursor Option

namespace Reader

variable {α β : Type}

/-- The next character, if it satisfies `p`. -/
def satisfy (p : Char → Bool) : Reader Char := fun cursor =>
  match cursor.rest with
  | [] => none
  | c :: rest => if p c then some (c, ⟨cursor.position + 1, rest⟩) else none

/-- A given character. -/
def char (c : Char) : Reader Unit := do let _ ← satisfy (· == c)

/-- Given characters, one after the other. -/
def exactly : List Char → Reader Unit
  | [] => pure ()
  | c :: rest => do char c; exactly rest

/-- All characters up to the first that does not satisfy `p`. -/
def takeWhile (p : Char → Bool) : Reader (List Char) := fun cursor =>
  let taken := cursor.rest.takeWhile p
  some (taken, ⟨cursor.position + taken.length, cursor.rest.dropWhile p⟩)

/-- The same with at least one character. -/
def takeWhile1 (p : Char → Bool) : Reader (List Char) := do
  let first ← satisfy p
  return first :: (← takeWhile p)

/-- A number of characters that satisfy `p`. -/
def count (p : Char → Bool) : Nat → Reader (List Char)
  | 0 => pure []
  | n + 1 => do
    let first ← satisfy p
    return first :: (← count p n)

/-- Succeeds without reading if `item` would. -/
def lookahead (item : Reader α) : Reader Unit := fun cursor =>
  (item cursor).map fun _ => ((), cursor)

/-- The end of the text. -/
def atEnd : Reader Unit := fun cursor => if cursor.rest.isEmpty then some ((), cursor) else none

/-- At most `bound` times `item`. -/
def manyUpTo (item : Reader α) : Nat → Reader (List α)
  | 0 => pure []
  | bound + 1 => (do let first ← item; return first :: (← manyUpTo item bound)) <|> pure []

/-- As many times `item` as possible, where `item` reads at least one character. -/
def many (item : Reader α) : Reader (List α) := fun cursor =>
  manyUpTo item (cursor.rest.length + 1) cursor

/-- One or more times `item` with `separator` between them. -/
def separated (item : Reader α) (separator : Reader β) : Reader (List α) := do
  let first ← item
  return first :: (← many (do let _ ← separator; item))

/-- What `item` reads together with its place. -/
def spanned (item : Reader α) : Reader (α × Span) := fun cursor =>
  (item cursor).map fun (a, after) => ((a, ⟨cursor.position, after.position⟩), after)

/-- A value that passes a check. -/
def guarded (item : Reader α) (check : α → Option β) : Reader β := do
  let a ← item
  match check a with
  | some b => pure b
  | none => failure

/-- Reads a whole text. -/
def run? (item : Reader α) (text : List Char) : Option α :=
  ((do let a ← item; atEnd; pure a : Reader α) ⟨0, text⟩).map (·.1)

end Reader

end BatchVerify.Toml
