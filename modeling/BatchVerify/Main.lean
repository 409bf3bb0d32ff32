import BatchVerify.Machine

/-!
# The command

What a command line can touch is copied onto a disk, the command runs there, and what it changed
is carried over. Verifiers are not started from here: each is told as one that could not be.
-/

namespace BatchVerify

/-- The text of a place on the real disk. -/
def Location.text (place : Location) : String :=
  "/" ++ "/".intercalate (place.reverse.map Utf8.decodeLossy)

/-- Copies what a path leads to onto a disk, and what lies below it for some levels. -/
def copyIn (levels : Nat) (path : Path) (disk : Disk) : IO Disk := do
  let here := (← IO.currentDir) / path.display
  if ← here.isDir then
    let mut disk := (disk.makeDirectories path).2
    match levels with
    | 0 => return disk
    | levels + 1 =>
      for entry in ← here.readDir do
        disk ← copyIn levels (path.join (Path.ofString entry.fileName)) disk
      return disk
  else if ← here.pathExists then
    let content ← IO.FS.readBinFile here
    match disk.addFile path content.toList with
    | .ok disk => return disk
    | .error _ => return disk
  else return disk

/-- The working directory alone. -/
def workplace : IO Disk := do
  let path := Path.ofString (toString (← IO.currentDir))
  let disk := (({} : Disk).makeDirectories path).2
  match disk.find path with
  | .ok place => return { disk with workDir := place }
  | .error _ => return disk

/-- All that a command line can touch. -/
def snapshot (options : CommandLine.Options) : IO Disk := do
  let mut disk ← workplace
  if let some path := options.config then disk ← copyIn 0 path disk
  if let .ok config := Config.load disk.read options.config options.overrides then
    for path in config.layout.outputRoot.ancestors do disk ← copyIn 0 path disk
    disk ← copyIn 1 config.layout.outputRoot disk
  if let some path := options.report then
    for path in path.ancestors do disk ← copyIn 0 path disk
  copyIn 2 options.root disk

/-- Carries over what changed between two disks. -/
def carryOver (before after : Disk) : IO Unit := do
  for (place, node) in after.nodes.reverse do
    if before.node? place ≠ some node then
      match node with
      | .directory => IO.FS.createDirAll place.text
      | .file file => IO.FS.writeBinFile place.text ⟨file.content.toArray⟩
      | .link _ => pure ()

/-- A machine that starts no processes. -/
def Machine.idleWorld : CommandLine.World Machine :=
  { Machine.world with
    verifier := commandVerifier fun _ machine => (.error (.os .notPermitted), machine) }

end BatchVerify

open BatchVerify in
/-- Runs the command line. -/
def main (args : List String) : IO UInt32 := do
  let args := args.map Utf8.encode
  let before ← match CommandLine.Options.ofArgs args with
    | .ok options => snapshot options
    | .error _ => pure {}
  let response := CommandLine.respond Machine.idleWorld args { disk := before }
  carryOver before (response.state { disk := before }).disk
  let wanted := (← IO.getEnv "RUST_LOG").map Utf8.encode
  (← IO.getStdout).write ⟨response.stdout.toArray⟩
  for remark in response.remarks wanted do (← IO.getStderr).write ⟨remark.written.toArray⟩
  return response.exitCode.toUInt32
