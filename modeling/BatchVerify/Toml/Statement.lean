import BatchVerify.Toml.Value

/-!
# Statements

A TOML text is a sequence of statements, one to a line: headers that open a table, and
assignments to keys of the table that is open.
-/

namespace BatchVerify.Toml

open Reader Lexeme

/-- A line of a document that says something. -/
inductive Statement where
  /-- A header in single brackets, with its place. -/
  | table (keys : List Key) (span : Span)
  /-- A header in double brackets, with its place. -/
  | element (keys : List Key) (span : Span)
  /-- A value for a key, `path` being the parts of the key before its last. -/
  | assign (path : List Key) (key : Key) (value : Node)

namespace Statement

/-- A header in double brackets. -/
def elementHeader : Reader Statement := do
  let (keys, span) ← spanned do
    exactly ['[', '[']
    let keys ← dottedKey
    exactly [']', ']']
    return keys
  lineEnd
  return .element keys span

/-- A header in single brackets. -/
def tableHeader : Reader Statement := do
  let (keys, span) ← spanned do
    char '['
    let keys ← dottedKey
    char ']'
    return keys
  lineEnd
  return .table keys span

/-- An assignment on a line of its own. -/
def assignmentLine : Reader Statement := do
  let (path, key, node) ← assignment value
  lineEnd
  return .assign path key node

/-- A line that says nothing. -/
def emptyLine : Reader Unit := newline <|> do comment; newline <|> atEnd

/-- The statements of a text, lines that say nothing left out. A byte order mark may precede
them. -/
def all : Reader (List Statement) := do
  let _ ← optional (char '\uFEFF')
  spaces
  let found ← many do
    let statement ←
      (do emptyLine; return none) <|>
      some <$> (elementHeader <|> tableHeader <|> assignmentLine)
    spaces
    return statement
  return found.filterMap id

/-- The statements of a text that is well-formed line by line. -/
def ofText? (text : List Char) : Option (List Statement) := run? all text

end Statement

end BatchVerify.Toml
