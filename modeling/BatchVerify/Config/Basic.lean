import BatchVerify.Path

/-!
# Configuration

What a batch run is told: which verifier to run and how, where sources and prover logs live, and
what to do when a file fails. Every field has a default.
-/

namespace BatchVerify

/-- What to do when an invocation fails. -/
inductive FailurePolicy where
  /-- Record the failure and go on with the next file. -/
  | keepGoing
  /-- Stop at the first failure. -/
  | abort
  deriving DecidableEq, Repr

namespace FailurePolicy

/-- How a policy is written, in a configuration and on the command line. -/
def spelling : FailurePolicy → String
  | .keepGoing => "continue"
  | .abort => "abort"

/-- The policy that a text spells. -/
def ofSpelling? (text : String) : Option FailurePolicy :=
  if text = "continue" then some .keepGoing
  else if text = "abort" then some .abort
  else none

/-- Why a text spells no policy. -/
def unknownMessage (text : String) : String :=
  "invalid failure policy '" ++ text ++ "': expected continue or abort"

theorem ofSpelling?_eq_some_iff {text : String} {policy : FailurePolicy} :
    ofSpelling? text = some policy ↔ text = policy.spelling := by
  unfold ofSpelling?
  cases policy <;> by_cases h : text = "continue" <;> by_cases h' : text = "abort" <;>
    simp_all [spelling]

end FailurePolicy

/-- The verifier and its fixed arguments. -/
structure VerifierSettings where
  /-- The executable. -/
  program : Path := Path.ofString "/home/jeff/Dev/Jeff_Boogie/Scripts/boogie"
  /-- The argument before the source file. -/
  modeFlag : String := "-tryModFix"
  /-- The time limit for one file, in seconds. -/
  timeLimit : UInt32 := 1
  deriving DecidableEq, Repr

/-- Where the sources and the prover logs live. -/
structure Layout where
  /-- The root of the output tree; a relative one starts at the working directory. -/
  outputRoot : Path := Path.ofString "../BoogieCollection/SMTs/DAFNY3"
  /-- The extension of source files, without a leading dot. -/
  sourceExtension : String := "bpl"
  /-- The extension of prover logs, without a leading dot. -/
  targetExtension : String := "smt2"
  deriving DecidableEq, Repr

/-- How a run behaves. -/
structure RunSettings where
  /-- What to do when an invocation fails. -/
  onError : FailurePolicy := .keepGoing
  /-- Keep the verifier's standard error in the report. -/
  captureStderr : Bool := true
  deriving DecidableEq, Repr

/-- The configuration of a batch run. -/
structure Config where
  verifier : VerifierSettings := {}
  layout : Layout := {}
  run : RunSettings := {}
  deriving DecidableEq, Repr

end BatchVerify
