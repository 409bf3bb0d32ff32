/-!
# JSON values and their text

A value is written with two blanks of indentation to a level, one item or field to a line, fields
in their order. An empty array or object stays on its line.
-/

namespace BatchVerify

/-- A JSON value; numbers are whole. -/
inductive Json where
  | null
  | integer (value : Int)
  | string (text : String)
  | array (items : List Json)
  | object (fields : List (String × Json))
  deriving Repr

namespace Json

/-- A character as it is written between quotes. -/
def escapeChar (c : Char) : List Char :=
  if c = '"' then ['\\', '"']
  else if c = '\\' then ['\\', '\\']
  else if c = '\x08' then ['\\', 'b']
  else if c = '\x0c' then ['\\', 'f']
  else if c = '\n' then ['\\', 'n']
  else if c = '\r' then ['\\', 'r']
  else if c = '\t' then ['\\', 't']
  else if c.toNat < 0x20 then
    ['\\', 'u', '0', '0', Nat.digitChar (c.toNat / 16), Nat.digitChar (c.toNat % 16)]
  else [c]

/-- A text between quotes. -/
def quoted (text : String) : List Char := '"' :: text.toList.flatMap escapeChar ++ ['"']

/-- A new line with the indentation of a level. -/
def lineBreak (level : Nat) : List Char := '\n' :: List.replicate (2 * level) ' '

mutual

/-- A value as it is written at a level of indentation. -/
def render (level : Nat) : Json → List Char
  | .null => ['n', 'u', 'l', 'l']
  | .integer value => (toString value).toList
  | .string text => quoted text
  | .array [] => ['[', ']']
  | .array (item :: items) =>
    '[' :: lineBreak (level + 1) ++ render (level + 1) item ++
      renderItems (level + 1) items ++ lineBreak level ++ [']']
  | .object [] => ['\x7b', '\x7d']
  | .object ((name, value) :: fields) =>
    '\x7b' :: lineBreak (level + 1) ++ quoted name ++ ':' :: ' ' :: render (level + 1) value ++
      renderFields (level + 1) fields ++ lineBreak level ++ ['\x7d']

/-- The items after the first. -/
def renderItems (level : Nat) : List Json → List Char
  | [] => []
  | item :: items => ',' :: lineBreak level ++ render level item ++ renderItems level items

/-- The fields after the first. -/
def renderFields (level : Nat) : List (String × Json) → List Char
  | [] => []
  | (name, value) :: fields =>
    ',' :: lineBreak level ++ quoted name ++ ':' :: ' ' :: render level value ++
      renderFields level fields

end

/-- The text of a value. -/
def text (value : Json) : String := String.ofList (value.render 0)

end Json

end BatchVerify
