import BatchVerify.Surroundings

/-!
# A tree in memory

Directories with their entries and the set of files, all in the order of paths. Two spellings of
one path are one entry, and the spelling that came first stays.
-/

namespace BatchVerify

/-- A path entered into a set in the order of paths. -/
def insertPath (path : Path) : List Path → List Path
  | [] => [path]
  | first :: rest =>
    match path.order first with
    | .lt => path :: first :: rest
    | .eq => first :: rest
    | .gt => first :: insertPath path rest

/-- The set holds a spelling of the path. -/
def containsPath (paths : List Path) (path : Path) : Bool := paths.any fun p => p.Same path

/-- Directories, each with its entries, in the order of paths. -/
abbrev Directories := List (Path × List Path)

namespace Directories

/-- The entries of a directory. -/
def entries? (dirs : Directories) (path : Path) : Option (List Path) :=
  (dirs.find? fun dir => dir.1.Same path).map (·.2)

/-- The directory is known. -/
def contains (dirs : Directories) (path : Path) : Bool := (dirs.entries? path).isSome

/-- Changes the entries of a directory, which is made if it is not known. -/
def alter (path : Path) (change : List Path → List Path) : Directories → Directories
  | [] => [(path, change [])]
  | (first, entries) :: rest =>
    match path.order first with
    | .lt => (path, change []) :: (first, entries) :: rest
    | .eq => (first, change entries) :: rest
    | .gt => (first, entries) :: alter path change rest

end Directories

/-- A tree in memory. -/
structure MemoryTree where
  dirs : Directories := []
  files : List Path := []
  /-- Every directory that a run asked for, in order. -/
  created : List Path := []
  /-- Directories cannot be made. -/
  readOnly : Bool := false
  deriving DecidableEq, Repr

namespace MemoryTree

/-- Adds a directory, also to the entries of the directory above it if that is known. -/
def addDir (tree : MemoryTree) (path : Path) : MemoryTree :=
  let dirs := match path.parent? with
    | some parent =>
      if tree.dirs.contains parent then tree.dirs.alter parent (insertPath path) else tree.dirs
    | none => tree.dirs
  { tree with dirs := dirs.alter path id }

/-- The directory that a file lies in; for a path without one, the empty path. -/
def parentOf (path : Path) : Path := path.parent?.getD ⟨[]⟩

/-- Adds a file and, if it is not known, its directory. -/
def addFile (tree : MemoryTree) (path : Path) : MemoryTree :=
  let parent := parentOf path
  let tree := if tree.dirs.contains parent then tree else tree.addDir parent
  { tree with
    dirs := tree.dirs.alter parent (insertPath path)
    files := insertPath path tree.files }

/-- Adds a directory or a file. -/
def add (tree : MemoryTree) : Addition → MemoryTree
  | .directory path => tree.addDir path
  | .file path => tree.addFile path

/-- The tree that additions make, in their order. -/
def ofAdditions (additions : List Addition) : MemoryTree := additions.foldl add {}

/-- The root has to be a known directory. -/
def checkRoot (root : Path) (tree : MemoryTree) : Except Failure Unit :=
  if tree.dirs.contains root then .ok ()
  else if containsPath tree.files root then .error (.rootNotDirectory root)
  else .error (.rootMissing root)

/-- The entries of a known directory that satisfy `keep`. -/
def list (keep : Path → Bool) (dir : Path) (tree : MemoryTree) : Except Failure Listing :=
  match tree.dirs.entries? dir with
  | some entries => .ok ⟨entries.filter keep, []⟩
  | none => .error (.system .missing)

/-- The entries that are directories. -/
def listGroups (root : Path) (tree : MemoryTree) : Except Failure Listing :=
  tree.list (fun path => tree.dirs.contains path) root

/-- The entries that are files. -/
def listFiles (group : Path) (tree : MemoryTree) : Except Failure Listing :=
  tree.list (containsPath tree.files) group

/-- Notes that a directory was asked for; the tree itself does not change. -/
def ensureDir (dir : Path) (tree : MemoryTree) : Except Failure Unit × MemoryTree :=
  if tree.readOnly then (.error (.outputDirectory dir .refused), tree)
  else (.ok (), { tree with created := tree.created ++ [dir] })

end MemoryTree

/-- The tree in memory as a source tree. -/
def memoryTree : SourceTree MemoryTree where
  checkRoot := MemoryTree.checkRoot
  listGroups := MemoryTree.listGroups
  listFiles := MemoryTree.listFiles
  ensureDir := MemoryTree.ensureDir

end BatchVerify
