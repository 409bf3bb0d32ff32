import BatchVerify.Config.Load
import BatchVerify.Disk.Walk

/-!
# Reading and changing a disk

Directories are made one at a time or with all they need above them; files are written as a whole.
-/

namespace BatchVerify

/-- A path and those of the directories above it, the nearest first, `n` steps up at most. -/
def Path.upward : (n : Nat) → Path → List Path
  | 0, path => [path]
  | n + 1, path =>
    match path.parent? with
    | some parent => path :: upward n parent
    | none => [path]

/-- A path and those of all directories above it, the nearest first. -/
def Path.ancestors (path : Path) : List Path := path.upward path.bytes.length

namespace Disk

/-- Makes a directory in one that is there. -/
def makeDirectory (disk : Disk) (path : Path) : Except SystemError Disk := do
  match ← disk.reachName path with
  | .place _ => .error (.os .exists)
  | .free directory name =>
    match disk.insert? (name :: directory) .directory with
    | some disk => .ok disk
    | none => .error (.os .noEntry)

/-- Makes the first of some paths a directory; if that fails for want of the directory above it,
the paths after the first are made before. The empty path is there already, and so is a path that
leads to a directory. What was made before a failure stays. -/
def makeChain : List Path → Disk → Except SystemError Unit × Disk
  | [], disk => (.error (.os .noEntry), disk)
  | path :: above, disk =>
    if path.bytes = [] then (.ok (), disk)
    else
      match disk.makeDirectory path with
      | .ok disk => (.ok (), disk)
      | .error cause =>
        if cause.kind = .notFound then
          match makeChain above disk with
          | (.error cause, disk) => (.error cause, disk)
          | (.ok (), disk) => settle path disk
        else settled path cause disk
where
  /-- A path that could not be made is good enough if it leads to a directory. -/
  settled (path : Path) (cause : SystemError) (disk : Disk) : Except SystemError Unit × Disk :=
    (if disk.isDirectory path then .ok () else .error cause, disk)
  /-- Makes a directory whose path had a part missing before. -/
  settle (path : Path) (disk : Disk) : Except SystemError Unit × Disk :=
    match disk.makeDirectory path with
    | .ok disk => (.ok (), disk)
    | .error cause => settled path cause disk

/-- Makes a directory with all it needs above it. -/
def makeDirectories (disk : Disk) (path : Path) : Except SystemError Unit × Disk :=
  makeChain path.ancestors disk

/-- Writes a regular file: the one that the path leads to, through links, or a new one at its
end. -/
def write (disk : Disk) (path : Path) (content : Bytes) : Except SystemError Disk := do
  match ← disk.reachFile path with
  | .place place =>
    match disk.node? place with
    | some (.file old) =>
      .ok (disk.setFile place { content, program := old.program.map fun _ => .unreadable })
    | _ => .error (.os .isDirectory)
  | .free directory name =>
    match disk.insert? (name :: directory) (.file { content }) with
    | some disk => .ok disk
    | none => .error (.os .noEntry)

/-- Writes a file, with all directories that it needs above it. -/
def addFile (disk : Disk) (path : Path) (content : Bytes) : Except SystemError Disk :=
  match path.parent? with
  | none => disk.write path content
  | some parent =>
    match disk.makeDirectories parent with
    | (.ok (), disk) => disk.write path content
    | (.error cause, _) => .error cause

/-- What a path holds for a reader of text files. -/
def read (disk : Disk) (path : Path) : FileContent :=
  match disk.lookUp path with
  | .ok (.file file) => .bytes file.content
  | _ => .missing

/-- Makes a symbolic link to a path, which need not lead anywhere. -/
def makeLink (disk : Disk) (path target : Path) : Except SystemError Disk := do
  let _ ← target.pieces
  match ← disk.reachName path with
  | .place _ => .error (.os .exists)
  | .free directory name =>
    match disk.insert? (name :: directory) (.link target) with
    | some disk => .ok disk
    | none => .error (.os .noEntry)

/-- Writes a program: an empty file that does something when it is run. -/
def install (disk : Disk) (path : Path) (program : Program) : Except SystemError Disk := do
  let disk ← disk.addFile path []
  return disk.setFile (← disk.find path) { program := some program }

/-- Removes what a path names, a directory with all that it holds. -/
def remove (disk : Disk) (path : Path) : Except SystemError Disk := do
  match ← disk.reachName path with
  | .place place => .ok (disk.removeAll place)
  | .free .. => .error (.os .noEntry)

end Disk

end BatchVerify
