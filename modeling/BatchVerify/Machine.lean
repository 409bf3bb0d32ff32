import BatchVerify.CommandLine.Run
import BatchVerify.Tree.OnDisk

/-!
# Machines

A machine runs the programs on its disk and remembers the arguments of every stand-in for a
verifier that ran on it.
-/

namespace BatchVerify

/-- A disk and the runs of stand-ins on it. -/
structure Machine where
  disk : Disk := {}
  /-- The arguments of each run, in order. -/
  calls : List (List Bytes) := []

namespace Machine

/-- The directories in which a program is looked for that is named without a separator. -/
def searchPath : List Path := ["/usr/local/bin", "/usr/bin", "/bin"].map Path.ofString

/-- What running a path would run. -/
def programAt (disk : Disk) (path : Path) : Except SystemError Program := do
  match ← disk.lookUp path with
  | .file { program := some program, .. } => .ok program
  | _ => .error (.os .accessDenied)

/-- The program of the first of some paths that leads to one; if none does, a path that is no
program is told rather than a missing one. -/
def firstProgram (disk : Disk) : List Path → Except SystemError Program
  | [] => .error (.os .noEntry)
  | path :: paths =>
    match programAt disk path, firstProgram disk paths with
    | .ok program, _ => .ok program
    | .error (.os .accessDenied), .error (.os .noEntry) => .error (.os .accessDenied)
    | .error _, found => found

/-- The program that a command names. -/
def findProgram (disk : Disk) (program : Path) : Except SystemError Program :=
  if Bytes.slash ∈ program.bytes then programAt disk program
  else if program.bytes = [] then .error (.os .noEntry)
  else if maxNameLength < program.bytes.length then .error (.os .nameTooLong)
  else firstProgram disk (searchPath.map fun directory => directory.join program)

/-- Runs a program that was found. A stand-in that cannot write its log goes on without. -/
def run (args : List Bytes) (machine : Machine) :
    Program → Except SystemError ProcessEnd × Machine
  | .unreadable => (.error (.os .notRunnable), machine)
  | .constant exitCode => (.ok (.exited exitCode [] []), machine)
  | .standIn rules =>
    let source := args[1]?.getD []
    let log := Program.logPath (args[2]?.getD [])
    let disk := match machine.disk.write log (Program.logText source) with
      | .ok disk => disk
      | .error _ => machine.disk
    (.ok (Program.answer rules source), { disk, calls := machine.calls ++ [args] })

/-- The number of bytes that no argument of a command reaches. -/
def maxArgumentLength : Nat := 131072

/-- Runs a command. -/
def launch (invocation : Invocation) (machine : Machine) :
    Except SystemError ProcessEnd × Machine :=
  if Bytes.nul ∈ invocation.program.bytes ∨ ∃ arg ∈ invocation.args, Bytes.nul ∈ arg then
    (.error .nulInCommand, machine)
  else
    match findProgram machine.disk invocation.program with
    | .error cause => (.error cause, machine)
    | .ok program =>
      if ∃ arg ∈ invocation.args, maxArgumentLength ≤ arg.length then
        (.error (.os .argumentListTooLong), machine)
      else machine.run invocation.args program

/-- The disk of a machine as a source tree. -/
def tree : SourceTree Machine :=
  diskTree.within Machine.disk fun disk machine => { machine with disk }

/-- Writes a file on the disk of a machine. -/
def write (path : Path) (content : Bytes) (machine : Machine) : Except SystemError Machine := do
  return { machine with disk := ← machine.disk.write path content }

/-- A machine as the world of a command line. -/
def world : CommandLine.World Machine where
  tree := tree
  verifier := commandVerifier launch
  read machine := machine.disk.read
  write := write

end Machine

end BatchVerify
