import BatchVerify.Toml.Lexeme
import BatchVerify.Toml.Table

/-!
# Values

A value is a scalar, an array or a table between braces. Arrays and such tables nest only to a
fixed depth, which is also what bounds the reader of values.
-/

namespace BatchVerify.Toml

open Reader Lexeme

/-- The greatest nesting depth of arrays and tables between braces. -/
def maxDepth : Nat := 79

/-- A value that contains no other. -/
def scalar : Reader Node :=
  (do let (text, span) ← spanned Lexeme.string; return .string span text) <|>
  (do let (_, span) ← spanned moment; return .moment span) <|>
  (do let (value, span) ← spanned (decimal <|> special); return .float span value) <|>
  (do let (value, span) ← spanned integer; return .integer span value) <|>
  (do let (_, span) ← spanned (exactly "true".toList); return .boolean span true) <|>
  (do let (_, span) ← spanned (exactly "false".toList); return .boolean span false)

/-- An array of values that `value` reads; a comma after the last is allowed. -/
def array (value : Reader Node) : Reader Node := do
  let (items, span) ← spanned do
    char '['
    let items ← optional do
      let items ← separated (do gap; let item ← value; gap; return item) (char ',')
      let _ ← optional (char ',')
      return items
    gap
    char ']'
    return items.getD []
  return .array span items

/-- A key and its value, as between braces and on a line of its own. -/
def assignment (value : Reader Node) : Reader (List Key × Key × Node) :=
  guarded (do
    let keys ← dottedKey
    char '='
    spaces
    return (keys, ← value))
    fun (keys, value) => keys.getLast?.map fun key => (keys.dropLast, key, value)

/-- The entries of a table in the order in which they are written. -/
def tableOf? (span : Option Span) (entries : List (List Key × Key × Node)) : Option Table :=
  entries.foldlM (fun t (path, key, value) => t.assign? path key value) ⟨span, .braced, []⟩

/-- A table between braces, whose values `value` reads. It stays on one line and has no comma
after the last entry. -/
def inlineTable (value : Reader Node) : Reader Node :=
  guarded
    (spanned do
      char '\x7b'
      let entries ← optional <|
        separated (do let entry ← assignment value; spaces; return entry) (char ',')
      spaces
      char '\x7d'
      return entries.getD [])
    fun (entries, span) => (tableOf? (some span) entries).map Table.toNode

/-- A value whose nesting depth is at most `depth`. -/
def valueTo : Nat → Reader Node
  | 0 => scalar
  | depth + 1 => scalar <|> array (valueTo depth) <|> inlineTable (valueTo depth)

/-- A value. -/
def value : Reader Node := valueTo maxDepth

end BatchVerify.Toml
