import BatchVerify.Failure
import BatchVerify.Toml.Document

/-!
# Loading a configuration

The defaults, then the file, then the overrides. The file is validated on its own, and the result
once more with the overrides on it.
-/

namespace BatchVerify

/-- Values that take precedence over those of the file. -/
structure Overrides where
  verifier : Option Path := none
  outputRoot : Option Path := none
  timeLimit : Option UInt32 := none
  onError : Option FailurePolicy := none
  deriving DecidableEq, Repr

/-- A configuration with the overrides on it. -/
def Overrides.apply (overrides : Overrides) (config : Config) : Config :=
  { config with
    verifier := { config.verifier with
      program := overrides.verifier.getD config.verifier.program
      timeLimit := overrides.timeLimit.getD config.verifier.timeLimit }
    layout := { config.layout with
      outputRoot := overrides.outputRoot.getD config.layout.outputRoot }
    run := { config.run with onError := overrides.onError.getD config.run.onError } }

/-- What a path holds for a reader of text files. -/
inductive FileContent where
  /-- There is no regular file. -/
  | missing
  | unreadable (cause : SystemError)
  | bytes (content : Bytes)

namespace Config

/-- A valid configuration, or the failure that its fault is. -/
def validated (config : Config) : Except Failure Config :=
  match config.validate with
  | .ok config => .ok config
  | .error fault => .error (.config fault)

/-- The configuration that a document text writes, validated. -/
def parse (text : String) : Except Failure Config :=
  match Toml.parse? text with
  | none => .error (.document .malformed)
  | some document =>
    match Schema.config document with
    | .error fault => .error (.document (.unfit text fault))
    | .ok config => config.validated

/-- The configuration of a file's content. -/
def ofFile (path : Path) : FileContent → Except Failure Config
  | .missing => .error (.configMissing path)
  | .unreadable cause => .error (.system cause)
  | .bytes content =>
    match Utf8.decode? content with
    | some text => parse text
    | none => .error (.system .notText)

/-- The configuration of a run: that of the file, if one is named, or the defaults, with the
overrides on it. `read` tells what a path holds. -/
def load (read : Path → FileContent) (file : Option Path) (overrides : Overrides) :
    Except Failure Config := do
  let config ← match file with
    | some path => ofFile path (read path)
    | none => .ok {}
  (overrides.apply config).validated

end Config

end BatchVerify
