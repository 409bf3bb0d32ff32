import BatchVerify.Text.Blank

/-!
# Statuses

How one invocation ended, and the one line that tells it.
-/

namespace BatchVerify

/-- How an invocation ended. -/
inductive Status where
  | succeeded
  /-- The verifier ended with another exit code than zero, or with none because a signal ended
  it. -/
  | failed (exitCode : Option Int) (stderr : Option String)
  /-- The verifier could not be started. -/
  | notStarted (reason : String)
  deriving DecidableEq, Repr

namespace Status

/-- The invocation ended well. -/
def isSuccess : Status → Bool
  | .succeeded => true
  | _ => false

/-- A sentence with the last telling line of the standard error after it. -/
def withStderr (sentence : String) (stderr : Option String) : String :=
  match stderr.bind fun text => Text.lastLine? text.toList with
  | some line => sentence ++ " (" ++ String.ofList line ++ ")"
  | none => sentence

/-- A status in one line. -/
def describe : Status → String
  | .succeeded => "succeeded"
  | .failed (some code) stderr => withStderr ("exited with status " ++ toString code) stderr
  | .failed none stderr => withStderr "terminated by signal" stderr
  | .notStarted reason => "could not be started: " ++ reason

end Status

end BatchVerify
