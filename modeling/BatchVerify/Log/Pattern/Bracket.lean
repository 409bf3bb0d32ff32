import BatchVerify.Log.Pattern.Lexeme

/-!
# Sets of characters in a pattern

Brackets hold the members of a set: characters, ranges, named sets and further brackets, with
operators between them. What counts of a set that is read is its height, the number of levels in
it.
-/

namespace BatchVerify.Log.Pattern

/-- The height of parts side by side: several of them are a level of their own. -/
def sideHeight : List Nat → Nat
  | [] => 0
  | [height] => height
  | heights => 1 + heights.foldl max 0

/-- The sets that have a name, as in `[:alpha:]`. -/
def setNames : List String :=
  [ "alnum", "alpha", "ascii", "blank", "cntrl", "digit", "graph", "lower", "print", "punct",
    "space", "upper", "word", "xdigit" ]

/-- A bracket that is open. -/
structure Bracket where
  /-- The height of what stands before the last operator. -/
  left : Option Nat := none
  /-- The heights of the members after it. -/
  members : List Nat := []
  /-- Only hyphens have been read; a hyphen is a member here, and so is `]` if it comes first. -/
  fresh : Bool := false
  deriving DecidableEq, Repr

namespace Bracket

/-- One more member. -/
def add (bracket : Bracket) (height : Nat) : Bracket :=
  { bracket with members := height :: bracket.members }

/-- The height of what stands in a bracket. -/
def height (bracket : Bracket) : Nat :=
  let right := sideHeight bracket.members
  bracket.left.elim right fun left => 1 + max left right

end Bracket

/-- The name in `[:name:]` and whether `^` stands before it, from the text after the first
bracket. -/
def setName? : List Char → Option (Bool × List Char)
  | ':' :: text =>
    let (negated, text) := match text with
      | '^' :: text => (true, text)
      | text => (false, text)
    match text.dropWhile (· ≠ ':') with
    | ':' :: ']' :: rest =>
      if String.ofList (text.takeWhile (· ≠ ':')) ∈ setNames then some (negated, rest) else none
    | _ => none
  | _ => none

namespace Switches

/-- The text after the start of a bracket, where `^` takes all other characters. -/
def openBracket? (s : Switches) (text : List Char) : Option (List Char) :=
  match s.skip text with
  | '^' :: rest => if s.unicode then some rest else none
  | rest => some rest

/-- The character that follows a hyphen, where the sign of a comment is passed over. -/
def afterHyphen? (s : Switches) (text : List Char) : Option Char :=
  if s.spaced then
    match Text.trimStart text with
    | '#' :: rest => (Text.trimStart rest).head?
    | rest => rest.head?
  else text.head?

/-- A character between brackets or what an escape there stands for. -/
def member? (s : Switches) : List Char → Option (Lexeme × List Char)
  | [] => none
  | '\\' :: rest => s.escape? rest
  | c :: rest => some (.literal c false, rest)

/-- A named set can be taken. Its members are in ASCII, so that only both cases of a character
would need a table; over bytes, its negation would hold bytes that are no text. -/
def takesNamedSet (s : Switches) (negated : Bool) : Bool :=
  if s.unicode then !s.caseless else !negated

/-- What follows a member or a range, if it can be taken. -/
def afterRange? (s : Switches) (text : List Char) : Option (List Char) := do
  let (first, rest) ← s.member? text
  let rest := s.skip rest
  match rest with
  | [] => none
  | c :: further =>
    if c ≠ '-' ∨ s.afterHyphen? further = some ']' ∨ s.afterHyphen? further = some '-' then
      if s.takesMember first then some rest else none
    else
      let (last, rest) ← s.member? (s.skip further)
      match first, last with
      | .literal low _, .literal high _ =>
        if low ≤ high ∧ s.takesMember first ∧ s.takesMember last then some rest else none
      | _, _ => none

/-- Reads brackets to the end of the outermost. Every step reads a character. -/
def bracketUpTo (s : Switches) :
    Nat → Bracket → List Bracket → List Char → Option (Nat × List Char)
  | 0, _, _, _ => none
  | bound + 1, bracket, outer, text =>
    match s.skip text with
    | [] => none
    | c :: rest =>
      if bracket.fresh ∧ (c = '-' ∨ (c = ']' ∧ bracket.members = [])) then
        if s.takesMember (.literal c false) then
          s.bracketUpTo bound { bracket.add 0 with fresh := c = '-' } outer rest
        else none
      else
        let bracket := { bracket with fresh := false }
        if c = ']' then
          match outer with
          | [] => some (1 + bracket.height, rest)
          | parent :: outer => s.bracketUpTo bound (parent.add (1 + bracket.height)) outer rest
        else if c = '[' then
          match setName? rest with
          | some (negated, rest) =>
            if s.takesNamedSet negated then s.bracketUpTo bound (bracket.add 0) outer rest
            else none
          | none => do
            s.bracketUpTo bound { fresh := true } (bracket :: outer) (← s.openBracket? rest)
        else if c ∈ ['&', '-', '~'] ∧ rest.head? = some c then
          s.bracketUpTo bound { left := bracket.height } outer rest.tail
        else do s.bracketUpTo bound (bracket.add 0) outer (← s.afterRange? (c :: rest))

/-- The height of a set and the text after it, from the text after its first bracket. -/
def bracket? (s : Switches) (text : List Char) : Option (Nat × List Char) := do
  s.bracketUpTo (text.length + 1) { fresh := true } [] (← s.openBracket? text)

end Switches

end BatchVerify.Log.Pattern
