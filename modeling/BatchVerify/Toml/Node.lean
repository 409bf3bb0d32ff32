import BatchVerify.Decimal.Binary64

/-!
# Document nodes

A TOML document is a tree of nodes under keys. Nodes and keys remember where they are written, so
that a reader that refuses one can point at it.
-/

namespace BatchVerify.Toml

/-- A stretch of a text, in characters from its beginning; `stop` is not part of it. -/
structure Span where
  start : Nat
  stop : Nat
  deriving DecidableEq, Repr

/-- A key with the place where it is written. -/
structure Key where
  name : String
  span : Span
  deriving DecidableEq, Repr

/-- How a table came to be. -/
inductive Origin where
  /-- Opened by its own header. -/
  | explicit
  /-- Written out between braces. -/
  | braced
  /-- Named on the way to the table of a header. -/
  | implied
  /-- Named on the way to a dotted key. -/
  | dotted
  deriving DecidableEq, Repr

/-- A node of a document. -/
inductive Node where
  | string (span : Span) (text : String)
  | integer (span : Span) (value : Int)
  | float (span : Span) (value : Binary64)
  | boolean (span : Span) (value : Bool)
  /-- A date, a time of day, or both. -/
  | moment (span : Span)
  | array (span : Span) (items : List Node)
  /-- A table. Only one that is written out has a place of its own. -/
  | table (span : Option Span) (origin : Origin) (entries : List (Key × Node))
  /-- The tables of repeated double-bracket headers of one name. -/
  | tables (elements : List Node)
  deriving Repr

namespace Node

/-- Where a node is written. A sequence of tables reaches from its first to its last. -/
def span? : Node → Option Span
  | .string span _ | .integer span _ | .float span _ | .boolean span _ | .moment span
  | .array span _ => some span
  | .table span _ _ => span
  | .tables elements => do
    let .table (some first) _ _ ← elements.head? | none
    let .table (some last) _ _ ← elements.getLast? | none
    some ⟨first.start, last.stop⟩

end Node

end BatchVerify.Toml
