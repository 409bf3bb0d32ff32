import BatchVerify.Disk.Change
import BatchVerify.Surroundings

/-!
# A disk as a source tree

Groups and sources are told apart by what a path leads to: a link to a directory is a group, a
link to a file may be a source. An entry that leads nowhere is passed over, and is no reason to
give up a listing.
-/

namespace BatchVerify

namespace Disk

/-- Fails unless a path leads to a directory. -/
def checkRoot (root : Path) (disk : Disk) : Except Failure Unit :=
  match disk.lookUp root with
  | .ok .directory => .ok ()
  | .ok _ => .error (.rootNotDirectory root)
  | .error cause =>
    .error (if cause.kind = .notFound then .rootMissing root else .system cause)

/-- The order of names, byte by byte. -/
def nameLe (a b : Bytes) : Bool := a ≤ b

/-- The names in the directory that a path leads to, in order. -/
def sortedNames (disk : Disk) (path : Path) : Except SystemError (List Bytes) := do
  let place ← disk.find path
  if disk.node? place = some .directory then .ok ((disk.names place).mergeSort nameLe)
  else .error (.os .notDirectory)

/-- Adds an entry of a directory to a listing, according to what its path leads to. -/
def classify (keep : Node → Bool) (disk : Disk) (entry : Path) (listing : Listing) : Listing :=
  match disk.lookUp entry with
  | .ok node => if keep node then { listing with kept := entry :: listing.kept } else listing
  | .error cause => { listing with skipped := ⟨entry, cause⟩ :: listing.skipped }

/-- The entries of a directory that lead to what `keep` accepts, in the order of their names. -/
def list (keep : Node → Bool) (dir : Path) (disk : Disk) : Except Failure Listing :=
  match disk.sortedNames dir with
  | .error cause => .error (.system cause)
  | .ok names =>
    .ok <| (names.map fun name => dir.join ⟨name⟩).foldr (disk.classify keep) ⟨[], []⟩

/-- The entries that lead to directories. -/
def listGroups (root : Path) (disk : Disk) : Except Failure Listing :=
  disk.list (fun node => node = .directory) root

/-- The entries that lead to regular files. -/
def listFiles (group : Path) (disk : Disk) : Except Failure Listing :=
  disk.list (fun node => node matches .file _) group

/-- Makes a directory with all it needs above it. -/
def ensureDir (dir : Path) (disk : Disk) : Except Failure Unit × Disk :=
  match disk.makeDirectories dir with
  | (.ok (), disk) => (.ok (), disk)
  | (.error cause, disk) => (.error (.outputDirectory dir cause), disk)

/-- Adds a directory or an empty file, with all directories that it needs above it. -/
def add (disk : Disk) : Addition → Except SystemError Disk
  | .directory path =>
    match disk.makeDirectories path with
    | (.ok (), disk) => .ok disk
    | (.error cause, _) => .error cause
  | .file path => disk.addFile path []

/-- How an inventory marks what a node is. -/
def mark : Node → Bytes
  | .directory => [Bytes.slash]
  | .file _ => []
  | .link _ => Utf8.encode "@"

/-- All that lies below a place, as marked relative paths, in the order of their bytes. Links are
not followed. -/
def inventory (disk : Disk) (place : Location) : List Bytes :=
  let entries := disk.nodes.filterMap fun (here, node) =>
    if here ≠ place ∧ place.isSuffixOf here then
      some (Pieces.join Bytes.slash (here.take (here.length - place.length)).reverse ++ mark node)
    else none
  entries.mergeSort nameLe

end Disk

/-- A disk as a source tree. -/
def diskTree : SourceTree Disk where
  checkRoot := Disk.checkRoot
  listGroups := Disk.listGroups
  listFiles := Disk.listFiles
  ensureDir := Disk.ensureDir

end BatchVerify
