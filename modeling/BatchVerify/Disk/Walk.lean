import BatchVerify.Disk.Basic

/-!
# Walking along a path

A path is walked piece by piece from the root or from the working directory. A symbolic link on
the way stands for the pieces of its target; a walk passes at most `maxLinks` of them. It ends at
something, or at a free name in a directory.
-/

namespace BatchVerify

/-- Where a walk ends. -/
inductive Reached where
  /-- Something is there. -/
  | place (place : Location)
  /-- The directory has nothing of that name. -/
  | free (directory : Location) (name : Bytes)
  deriving DecidableEq, Repr

/-- What a walk is for. -/
inductive Aim where
  /-- What the path leads to; a link at its end is followed. -/
  | target
  /-- What has the name at the end, be it a link. -/
  | name
  /-- The file that the path leads to, which may have to be made: a separator after its name, in
  the path or in the link at its end, asks for a directory. -/
  | file
  deriving DecidableEq, Repr

/-- The number of links that a walk may pass. -/
def maxLinks : Nat := 40

/-- The number of bytes that no path reaches. -/
def maxPathLength : Nat := 4096

/-- The pieces of a path that an operating system takes. -/
def Path.pieces (path : Path) : Except SystemError (List Bytes) :=
  if Bytes.nul ∈ path.bytes then .error .nulInPath
  else if path.bytes = [] then .error (.os .noEntry)
  else if maxPathLength ≤ path.bytes.length then .error (.os .nameTooLong)
  else .ok (Pieces.split Bytes.slash path.bytes)

/-- Pieces without the empty ones at the end, which separators at the end of a path leave. -/
def dropTrailing (pieces : List Bytes) : List Bytes :=
  (pieces.reverse.dropWhile fun piece => piece = []).reverse

namespace Disk

/-- Walks along pieces. A link is handed to `onLink`, with the directory it is in and the pieces
that stand for it and for the rest of the way; at the end a link may be all that is looked for. -/
def walkWith (disk : Disk) (aim : Aim)
    (onLink : Location → List Bytes → Except SystemError Reached) :
    Location → List Bytes → Except SystemError Reached
  | here, [] => .ok (.place here)
  | here, piece :: rest =>
    if disk.node? here ≠ some .directory then .error (.os .notDirectory)
    else if piece = [] ∨ piece = [Bytes.dot] then disk.walkWith aim onLink here rest
    else if piece = [Bytes.dot, Bytes.dot] then
      disk.walkWith aim onLink here.tail rest
    else if aim = .file ∧ rest ≠ [] ∧ dropTrailing rest = [] then .error (.os .isDirectory)
    else if maxNameLength < piece.length then .error (.os .nameTooLong)
    else
      match disk.node? (piece :: here) with
      | none => if rest = [] then .ok (.free here piece) else .error (.os .noEntry)
      | some (.link target) =>
        if rest = [] ∧ aim = .name then .ok (.place (piece :: here))
        else
          onLink (if target.isAbsolute then [] else here)
            (Pieces.split Bytes.slash target.bytes ++ rest)
      | some _ => disk.walkWith aim onLink (piece :: here) rest

/-- Walks along pieces and passes a limited number of links. -/
def walk (disk : Disk) (aim : Aim) :
    (links : Nat) → Location → List Bytes → Except SystemError Reached
  | 0 => disk.walkWith aim fun _ _ => .error (.os .linkLoop)
  | links + 1 => disk.walkWith aim (disk.walk aim links)

/-- Where a path starts. -/
def start (disk : Disk) (path : Path) : Location :=
  if path.isAbsolute then [] else disk.workDir

/-- Walks along a path to its end; a link at the end is followed. -/
def reach (disk : Disk) (path : Path) : Except SystemError Reached := do
  disk.walk .target maxLinks (disk.start path) (← path.pieces)

/-- Walks along a path to a file that is to be written. -/
def reachFile (disk : Disk) (path : Path) : Except SystemError Reached := do
  disk.walk .file maxLinks (disk.start path) (← path.pieces)

/-- Walks along a path up to its last piece, which is taken as a name: separators after it do not
count, and a link there is not followed. -/
def reachName (disk : Disk) (path : Path) : Except SystemError Reached := do
  disk.walk .name maxLinks (disk.start path) (dropTrailing (← path.pieces))

/-- The place that a path leads to. -/
def find (disk : Disk) (path : Path) : Except SystemError Location := do
  match ← disk.reach path with
  | .place place => .ok place
  | .free .. => .error (.os .noEntry)

/-- What a path leads to; never a link. -/
def lookUp (disk : Disk) (path : Path) : Except SystemError Node := do
  match disk.node? (← disk.find path) with
  | some node => .ok node
  | none => .error (.os .noEntry)

/-- A path leads to a directory. -/
def isDirectory (disk : Disk) (path : Path) : Bool :=
  match disk.lookUp path with
  | .ok .directory => true
  | _ => false

end Disk

end BatchVerify
