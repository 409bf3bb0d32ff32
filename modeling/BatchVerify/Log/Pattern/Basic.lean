import BatchVerify.Log.Pattern.Bracket
import BatchVerify.Text.Alphanumeric

/-!
# Patterns

A filter may ask that the value of a field match a pattern. Nothing that is told here is ever
matched, but a filter is only taken if its patterns are well-formed and none of them needs more
than a filter knows. A directive holds no closing brace, so that no count is ever complete.
-/

namespace BatchVerify.Log.Pattern

/-- The greatest height of a pattern. -/
def maxHeight : Nat := 250

/-- A group that is open, or the whole pattern. -/
structure Group where
  /-- The switches in force. -/
  switches : Switches := {}
  /-- The heights of the alternatives that are complete. -/
  alternatives : List Nat := []
  /-- The heights of the parts of the last alternative, the last first; a setting of switches has
  none. -/
  parts : List (Option Nat) := []
  deriving DecidableEq, Repr

namespace Group

/-- One more part. -/
def add (group : Group) (height : Nat) : Group :=
  { group with parts := some height :: group.parts }

/-- The height of the last alternative. -/
def partsHeight (group : Group) : Nat := sideHeight (group.parts.map (·.getD 0))

/-- The height of what stands in a group. -/
def height (group : Group) : Nat := sideHeight (group.partsHeight :: group.alternatives)

/-- Begins a further alternative. -/
def branch (group : Group) : Group :=
  { group with alternatives := group.partsHeight :: group.alternatives, parts := [] }

/-- Repeats the last part; a setting of switches cannot be repeated. -/
def repeat? (group : Group) : Option Group :=
  match group.parts with
  | some height :: parts => some { group with parts := some (1 + height) :: parts }
  | _ => none

end Group

/-- What an opening parenthesis opens. -/
inductive Opening where
  | group (name : Option (List Char)) (switches : Switches)
  /-- A setting of switches, which ends where it begins. -/
  | setting (switches : Switches)
  deriving DecidableEq, Repr

/-- The name of a group: letters and numbers, some signs among them, but no number first. -/
def isGroupName : List Char → Bool
  | [] => false
  | c :: rest =>
    (c = '_' || Text.isLetter c) &&
      rest.all fun c => c ∈ ['_', '.', '[', ']'] || Text.isAlphanumeric c

/-- The name of a group before `>`, and the text after that. -/
def groupName? (text : List Char) : Option (List Char × List Char) :=
  let name := text.takeWhile (· ≠ '>')
  match text.dropWhile (· ≠ '>') with
  | _ :: rest => if isGroupName name then some (name, rest) else none
  | [] => none

namespace Switches

/-- Switches after letters that turn them on, and off after a hyphen. -/
def set (s : Switches) (letters : List Char) : Switches :=
  let on := letters.takeWhile (· ≠ '-')
  let state (letter : Char) (before : Bool) : Bool :=
    if letter ∈ on then true else if letter ∈ letters then false else before
  { spaced := state 'x' s.spaced, caseless := state 'i' s.caseless,
    unicode := state 'u' s.unicode }

/-- Letters set switches: each is known and written once, and there is something after the
hyphen. -/
def isSetting (letters : List Char) : Bool :=
  letters.all (· ∈ ['i', 'm', 's', 'U', 'u', 'R', 'x', '-']) && decide letters.Nodup &&
    letters.getLast? ≠ some '-'

/-- What a parenthesis opens, and the text after that. -/
def opening? (s : Switches) (text : List Char) : Option (Opening × List Char) :=
  match s.skip text with
  | '?' :: '<' :: rest | '?' :: 'P' :: '<' :: rest => do
    let (name, rest) ← groupName? rest
    return (.group (some name) s, rest)
  | '?' :: rest =>
    let isEnd (c : Char) : Bool := c = ':' || c = ')'
    let letters := rest.takeWhile (!isEnd ·)
    match rest.dropWhile (!isEnd ·) with
    | ':' :: rest => if isSetting letters then some (.group none (s.set letters), rest) else none
    | _ :: rest =>
      if letters ≠ [] ∧ isSetting letters then some (.setting (s.set letters), rest) else none
    | [] => none
  | rest => some (.group none s, rest)

/-- A part that is a single character, sign or escape. -/
def lexeme? (s : Switches) : Char → List Char → Option (Lexeme × List Char)
  | '\\', rest => s.escape? rest
  | '.', rest => some (.any, rest)
  | '^', rest | '$', rest => some (.edge, rest)
  | '\x7b', _ => none
  | c, rest => some (.literal c false, rest)

end Switches

/-- How far a pattern has been read. -/
structure Reading where
  /-- The names that groups have. -/
  names : List (List Char) := []
  /-- The innermost group that is open. -/
  inner : Group := {}
  /-- The groups around it, the nearest first. -/
  outer : List Group := []
  deriving DecidableEq, Repr

namespace Reading

/-- Opens a group or sets switches. No two groups have one name. -/
def open? (reading : Reading) : Opening → Option Reading
  | .setting switches =>
    some
      { reading with
        inner := { reading.inner with switches, parts := none :: reading.inner.parts } }
  | .group name switches =>
    if name.any (· ∈ reading.names) then none
    else
      some
        { names := name.toList ++ reading.names, inner := { switches }
          outer := reading.inner :: reading.outer }

/-- Closes the innermost group. -/
def close? (reading : Reading) : Option Reading :=
  match reading.outer with
  | [] => none
  | parent :: outer =>
    some { reading with inner := parent.add (1 + reading.inner.height), outer }

/-- Reads what a character begins. -/
def step? (reading : Reading) (c : Char) (rest : List Char) : Option (Reading × List Char) :=
  let switches := reading.inner.switches
  if c = '(' then do
    let (opening, rest) ← switches.opening? rest
    return (← reading.open? opening, rest)
  else if c = ')' then do return (← reading.close?, rest)
  else if c = '|' then some ({ reading with inner := reading.inner.branch }, rest)
  else if c ∈ ['?', '*', '+'] then do
    let inner ← reading.inner.repeat?
    return ({ reading with inner }, if rest.head? = some '?' then rest.tail else rest)
  else if c = '[' then do
    let (height, rest) ← switches.bracket? rest
    return ({ reading with inner := reading.inner.add height }, rest)
  else do
    let (lexeme, rest) ← switches.lexeme? c rest
    if switches.takes lexeme then some ({ reading with inner := reading.inner.add 0 }, rest)
    else none

/-- Reads a text to its end. Every step reads a character. -/
def upTo : Nat → Reading → List Char → Option Reading
  | 0, _, _ => none
  | bound + 1, reading, text =>
    match reading.inner.switches.skip text with
    | [] => some reading
    | c :: rest => do
      let (reading, rest) ← reading.step? c rest
      upTo bound reading rest

end Reading

/-- A text is a pattern that a filter takes: all its groups are closed, and it is not too high. -/
def isTaken (text : List Char) : Bool :=
  match Reading.upTo (text.length + 1) {} text with
  | some reading => reading.outer = [] && reading.inner.height ≤ maxHeight
  | none => false

end BatchVerify.Log.Pattern
