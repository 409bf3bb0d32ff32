import BatchVerify.Pieces
import BatchVerify.Text.Utf8

/-!
# Paths

A path is a byte sequence that reads as a list of components. Two spellings are the same path
when their components agree: repeated separators, a separator at the end and inner `.` do not
count, a `.` at the front does. Paths are ordered by their components.
-/

namespace BatchVerify

/-- A step of a path. -/
inductive Component where
  | root
  | current
  | parent
  | name (bytes : Bytes)
  deriving DecidableEq, Repr

namespace Component

/-- What a piece between separators stands for after the first one; empty pieces and `.` stand
for nothing. -/
def ofPiece? (piece : Bytes) : Option Component :=
  if piece = [] ∨ piece = [Bytes.dot] then none
  else if piece = [Bytes.dot, Bytes.dot] then some .parent
  else some (.name piece)

/-- The order key of a component: the root, then `.`, then `..`, then names byte by byte. -/
def rank : Component → Bytes
  | .root => [0]
  | .current => [1]
  | .parent => [2]
  | .name bytes => 3 :: bytes

end Component

/-- A path as it is spelled. -/
structure Path where
  bytes : Bytes
  deriving DecidableEq, Repr

namespace Path

/-- The path that a text spells. -/
def ofString (text : String) : Path := ⟨Utf8.encode text⟩

/-- A path as shown to a reader. -/
def display (p : Path) : String := Utf8.decodeLossy p.bytes

/-- What the first piece of a path stands for, given the pieces after it. -/
def leading (piece : Bytes) (later : List Bytes) : List Component :=
  if piece = [] then if later = [] then [] else [.root]
  else if piece = [Bytes.dot] then [.current]
  else (Component.ofPiece? piece).toList

/-- The components of a path, from its beginning. -/
def components (p : Path) : List Component :=
  match Pieces.split Bytes.slash p.bytes with
  | [] => []
  | piece :: later => leading piece later ++ later.filterMap Component.ofPiece?

/-- Two spellings of one path. -/
def Same (p q : Path) : Prop := p.components = q.components

instance (p q : Path) : Decidable (p.Same q) := inferInstanceAs (Decidable (_ = _))

/-- The order of paths: component by component. -/
def order (p q : Path) : Ordering :=
  compare (p.components.map Component.rank) (q.components.map Component.rank)

/-- The path starts at the root. -/
def isAbsolute (p : Path) : Bool := p.bytes.head? = some Bytes.slash

/-- The last component, if it is an ordinary name. -/
def name? (p : Path) : Option Bytes :=
  match p.components.getLast? with
  | some (.name bytes) => some bytes
  | _ => none

/-- Pieces without those at the end that stand for nothing. -/
def dropIdle (pieces : List Bytes) : List Bytes :=
  (pieces.reverse.dropWhile fun piece => (Component.ofPiece? piece).isNone).reverse

/-- The path without its last component, spelled as before up to there. The root and the empty
path have none. -/
def parent? (p : Path) : Option Path :=
  match Pieces.split Bytes.slash p.bytes with
  | [] => none
  | first :: later =>
    match dropIdle later with
    | [] => if first = [] then none else some ⟨[]⟩
    | inner =>
      match first, dropIdle inner.dropLast with
      | [], [] => some ⟨[Bytes.slash]⟩
      | _, kept => some ⟨Pieces.join Bytes.slash (first :: kept)⟩

/-- A path below another. An absolute path stays what it is. -/
def join (p q : Path) : Path :=
  if q.isAbsolute then q
  else if p.bytes = [] ∨ p.bytes.getLast? = some Bytes.slash then ⟨p.bytes ++ q.bytes⟩
  else ⟨p.bytes ++ Bytes.slash :: q.bytes⟩

end Path

/-- The name before its last dot and what follows it. A name without a dot, or whose only dot
comes first, has no extension. -/
def splitExtension (name : Bytes) : Bytes × Option Bytes :=
  match Pieces.cutLast? Bytes.dot name with
  | some (before, after) => if before = [] then (name, none) else (before, some after)
  | none => (name, none)

namespace Path

/-- The last component without its extension. -/
def stem? (p : Path) : Option Bytes := p.name?.map fun name => (splitExtension name).1

/-- What follows the last dot of the last component. -/
def extension? (p : Path) : Option Bytes := p.name?.bind fun name => (splitExtension name).2

end Path

end BatchVerify
