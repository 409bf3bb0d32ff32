import BatchVerify.Toml.Node

/-!
# Building tables

A table is built entry by entry. Keys are unique, and a path of keys may pass only through tables
that are still open to it: a table that a header opened is closed to dotted keys, and one between
braces is complete where it is written.
-/

namespace BatchVerify.Toml

/-- A table while it is built. -/
structure Table where
  span : Option Span
  origin : Origin
  entries : List (Key × Node)

/-- What a path of keys leads to: the table of a header, or a dotted key. -/
inductive Way where
  | header
  | dotted
  deriving DecidableEq

namespace Table

/-- The table as a node. -/
def toNode (t : Table) : Node := .table t.span t.origin t.entries

/-- The node under a name. -/
def get? (t : Table) (name : String) : Option Node :=
  (t.entries.find? fun entry => entry.1.name == name).map (·.2)

/-- Puts a node under a key: in the place of the node with that name, else at the end. -/
def put (t : Table) (key : Key) (node : Node) : Table :=
  if (t.get? key.name).isSome then
    { t with entries := t.entries.map fun entry =>
        if entry.1.name == key.name then (entry.1, node) else entry }
  else { t with entries := t.entries ++ [(key, node)] }

/-- The table without a name. -/
def erase (t : Table) (name : String) : Table :=
  { t with entries := t.entries.filter fun entry => entry.1.name != name }

/-- The origin of a table that is first named on a way. -/
def Way.origin : Way → Origin
  | .header => .implied
  | .dotted => .dotted

/-- Changes the table at the end of a path. Names that are missing become tables; of repeated
tables the last is taken. A dotted key cannot pass through a table that a header opened, and no
path can pass through one between braces or through anything but a table. -/
def descend? {β : Type} (way : Way) :
    List Key → (Table → Option (β × Table)) → Table → Option (β × Table)
  | [], change, t => change t
  | key :: path, change, t =>
    match t.get? key.name with
    | none => do
      let (b, child) ← descend? way path change ⟨none, Way.origin way, []⟩
      return (b, t.put key child.toNode)
    | some (.table span origin entries) =>
      if origin = .braced ∨ (way = .dotted ∧ origin = .explicit) then none
      else do
        let (b, child) ← descend? way path change ⟨span, origin, entries⟩
        return (b, t.put key child.toNode)
    | some (.tables elements) =>
      match elements.getLast? with
      | some (.table span origin entries) => do
        let (b, child) ← descend? way path change ⟨span, origin, entries⟩
        return (b, t.put key (.tables (elements.dropLast ++ [child.toNode])))
      | _ => none
    | some _ => none

/-- Enters a value under a dotted key, `path` being its parts before the last. The last part must
be new, and dotted and undotted keys do not share a table. -/
def assign? (t : Table) (path : List Key) (key : Key) (value : Node) : Option Table :=
  (descend? .dotted path (fun inner =>
    if (inner.origin == .dotted) == path.isEmpty then none
    else if (inner.get? key.name).isSome then none
    else some ((), inner.put key value)) t).map (·.2)

end Table

end BatchVerify.Toml
