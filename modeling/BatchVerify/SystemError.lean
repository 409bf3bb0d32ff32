/-!
# System errors

Why an operation on the surroundings failed: an error number of the operating system, or a cause
found before it was asked. Each cause has a kind, a coarse class for callers, and a text.
-/

namespace BatchVerify

/-- The error numbers an operating system answers with. -/
inductive Errno where
  | notPermitted
  | noEntry
  | interrupted
  | inputOutput
  | argumentListTooLong
  | notRunnable
  | outOfMemory
  | accessDenied
  | busy
  | exists
  | crossDevice
  | notDirectory
  | isDirectory
  | invalidArgument
  | textBusy
  | fileTooLarge
  | noSpace
  | readOnly
  | tooManyHardLinks
  | brokenPipe
  | nameTooLong
  | notEmpty
  | linkLoop
  | stale
  deriving DecidableEq, Repr

/-- The coarse class of an error. -/
inductive ErrorKind where
  | permissionDenied
  | notFound
  | interrupted
  | inputOutputError
  | argumentListTooLong
  | outOfMemory
  | resourceBusy
  | alreadyExists
  | crossesDevices
  | notADirectory
  | isADirectory
  | invalidInput
  | invalidData
  | executableFileBusy
  | fileTooLarge
  | storageFull
  | readOnlyFilesystem
  | tooManyLinks
  | brokenPipe
  | invalidFilename
  | directoryNotEmpty
  | filesystemLoop
  | staleNetworkFileHandle
  | unclassified
  | other
  deriving DecidableEq, Repr

namespace Errno

/-- Every error number with its value, its class and its text. -/
def table : List (Errno × Nat × ErrorKind × String) :=
  [ (.notPermitted, 1, .permissionDenied, "Operation not permitted"),
    (.noEntry, 2, .notFound, "No such file or directory"),
    (.interrupted, 4, .interrupted, "Interrupted system call"),
    (.inputOutput, 5, .inputOutputError, "Input/output error"),
    (.argumentListTooLong, 7, .argumentListTooLong, "Argument list too long"),
    (.notRunnable, 8, .unclassified, "Exec format error"),
    (.outOfMemory, 12, .outOfMemory, "Cannot allocate memory"),
    (.accessDenied, 13, .permissionDenied, "Permission denied"),
    (.busy, 16, .resourceBusy, "Device or resource busy"),
    (.exists, 17, .alreadyExists, "File exists"),
    (.crossDevice, 18, .crossesDevices, "Invalid cross-device link"),
    (.notDirectory, 20, .notADirectory, "Not a directory"),
    (.isDirectory, 21, .isADirectory, "Is a directory"),
    (.invalidArgument, 22, .invalidInput, "Invalid argument"),
    (.textBusy, 26, .executableFileBusy, "Text file busy"),
    (.fileTooLarge, 27, .fileTooLarge, "File too large"),
    (.noSpace, 28, .storageFull, "No space left on device"),
    (.readOnly, 30, .readOnlyFilesystem, "Read-only file system"),
    (.tooManyHardLinks, 31, .tooManyLinks, "Too many links"),
    (.brokenPipe, 32, .brokenPipe, "Broken pipe"),
    (.nameTooLong, 36, .invalidFilename, "File name too long"),
    (.notEmpty, 39, .directoryNotEmpty, "Directory not empty"),
    (.linkLoop, 40, .filesystemLoop, "Too many levels of symbolic links"),
    (.stale, 116, .staleNetworkFileHandle, "Stale file handle") ]

/-- The error number with a given value. -/
def ofNumber? (n : Nat) : Option Errno :=
  (table.find? fun row => row.2.1 == n).map (·.1)

/-- The value of an error number. -/
def number (e : Errno) : Nat := (table.lookup e).elim 0 (·.1)

/-- The class of an error number. -/
def kind (e : Errno) : ErrorKind := (table.lookup e).elim .other (·.2.1)

/-- What an error number means. -/
def text (e : Errno) : String := (table.lookup e).elim "" (·.2.2)

/-- The table has a row for every error number, and no two share a value. -/
theorem ofNumber?_number (e : Errno) : ofNumber? e.number = some e := by
  cases e <;> rfl

end Errno

/-- Why an operation on the surroundings failed. -/
inductive SystemError where
  /-- The operating system answered with an error number. -/
  | os (errno : Errno)
  /-- A path with a NUL byte names nothing. -/
  | nulInPath
  /-- A program or an argument with a NUL byte cannot be handed to a process. -/
  | nulInCommand
  /-- A text file was expected, and its bytes are not UTF-8. -/
  | notText
  /-- There is no such directory in a tree held in memory. -/
  | missing
  /-- A tree held in memory refuses to be changed. -/
  | refused
  deriving DecidableEq, Repr

namespace SystemError

/-- The class of a cause. -/
def kind : SystemError → ErrorKind
  | .os errno => errno.kind
  | .nulInPath | .nulInCommand => .invalidInput
  | .notText => .invalidData
  | .missing => .notFound
  | .refused => .permissionDenied

/-- The text of a cause. -/
def message : SystemError → String
  | .os errno => s!"{errno.text} (os error {errno.number})"
  | .nulInPath => "file name contained an unexpected NUL byte"
  | .nulInCommand => "nul byte found in provided data"
  | .notText => "stream did not contain valid UTF-8"
  | .missing => "entity not found"
  | .refused => "permission denied"

end SystemError

end BatchVerify
