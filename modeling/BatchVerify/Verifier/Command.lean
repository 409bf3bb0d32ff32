import BatchVerify.Surroundings

/-!
# A verifier run as a process

The verifier is a program of its own. Its exit code decides about the status, and its standard
error is kept with a failure if that is wanted. What it writes is passed on in either case.
-/

namespace BatchVerify

/-- How a process ended, and what it wrote. -/
structure ProcessEnd where
  /-- The exit code; there is none if a signal ended the process. -/
  exitCode : Option Int
  stdout : Bytes := []
  stderr : Bytes := []
  deriving DecidableEq, Repr

/-- A text as it is kept with a failure: without the blanks around it, if anything is left. -/
def keptText (text : String) : Option String :=
  let trimmed := Text.trim text.toList
  if trimmed = [] then none else some (String.ofList trimmed)

namespace ProcessEnd

/-- The status of a verifier that ended so; `capture` tells whether its standard error is kept. -/
def status (capture : Bool) (ended : ProcessEnd) : Status :=
  if ended.exitCode = some 0 then .succeeded
  else .failed ended.exitCode (if capture then keptText (Utf8.decodeLossy ended.stderr) else none)

/-- The end of a verifier run, with what it wrote. -/
def verification (capture : Bool) (ended : ProcessEnd) : Verification :=
  { status := ended.status capture, stdout := ended.stdout, stderr := ended.stderr }

end ProcessEnd

/-- A verifier that is launched as a process. -/
def commandVerifier {σ : Type} (launch : Invocation → σ → Except SystemError ProcessEnd × σ)
    (capture : Bool) : Verifier σ where
  run invocation state :=
    match launch invocation state with
    | (.ok ended, state) => (ended.verification capture, state)
    | (.error cause, state) => ({ status := .notStarted cause.message }, state)

end BatchVerify
