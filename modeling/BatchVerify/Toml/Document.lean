import BatchVerify.Toml.Statement

/-!
# Documents

Statements build a document: a header closes the table that is open and opens its own, and an
assignment enters a value into the open table. A table is opened by a header once; one that was
only named on the way to another header may still be opened, and then counts as new.
-/

namespace BatchVerify.Toml

/-- A document under construction. The open table is not yet part of `root`. -/
structure Builder where
  /-- The tables that are closed. -/
  root : Table
  /-- The table that is open. -/
  current : Table
  /-- The header that opened it; the first table has none. -/
  path : List Key
  /-- The header was in double brackets. -/
  repeated : Bool

namespace Builder

/-- Nothing is written yet. -/
def empty : Builder := ⟨⟨none, .explicit, []⟩, ⟨none, .explicit, []⟩, [], false⟩

/-- Enters the open table under its name. -/
def closed? (b : Builder) : Option Table :=
  match b.path.getLast? with
  | none => some b.current
  | some key =>
    (Table.descend? .header b.path.dropLast (fun outer =>
      match outer.get? key.name with
      | none =>
        let node := b.current.toNode
        some ((), outer.put key (if b.repeated then .tables [node] else node))
      | some (.tables elements) =>
        if b.repeated then some ((), outer.put key (.tables (elements ++ [b.current.toNode])))
        else none
      | some _ => none) b.root).map (·.2)

/-- Opens the table of a header in single brackets: a new one, or one that was only named on the
way to another header, which leaves its place for it. -/
def openTable? (b : Builder) (keys : List Key) (span : Span) : Option Builder := do
  let root ← b.closed?
  let key ← keys.getLast?
  let (entries, root) ← Table.descend? .header keys.dropLast (fun outer =>
    match outer.get? key.name with
    | none => some ([], outer)
    | some (.table _ .implied entries) => some (entries, outer.erase key.name)
    | some _ => none) root
  return ⟨root, ⟨some span, .explicit, entries⟩, keys, false⟩

/-- Opens a further table of a header in double brackets. -/
def openElement? (b : Builder) (keys : List Key) (span : Span) : Option Builder := do
  let root ← b.closed?
  let key ← keys.getLast?
  let ((), root) ← Table.descend? .header keys.dropLast (fun outer =>
    match outer.get? key.name with
    | none => some ((), outer.put key (.tables []))
    | some (.tables _) => some ((), outer)
    | some _ => none) root
  return ⟨root, ⟨some span, .explicit, []⟩, keys, true⟩

/-- Enters a value into the open table, whose place then reaches to the end of that value. -/
def assign? (b : Builder) (path : List Key) (key : Key) (value : Node) : Option Builder := do
  let span := match b.current.span, value.span? with
    | some span, some last => some ⟨span.start, last.stop⟩
    | span, _ => span
  let current ← { b.current with span }.assign? path key value
  return { b with current }

/-- What a statement does to a document. -/
def step? (b : Builder) : Statement → Option Builder
  | .table keys span => b.openTable? keys span
  | .element keys span => b.openElement? keys span
  | .assign path key value => b.assign? path key value

end Builder

/-- The document that statements build. -/
def documentOf? (statements : List Statement) : Option Node := do
  let b ← statements.foldlM Builder.step? Builder.empty
  let root ← b.closed?
  return root.toNode

/-- The document that a text writes, if it is well-formed. -/
def parse? (text : String) : Option Node := Statement.ofText? text.toList >>= documentOf?

end BatchVerify.Toml
