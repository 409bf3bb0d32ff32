import BatchVerify.Surroundings

/-!
# A scripted verifier

It answers each source with the status that was set for it, and remembers what it was asked.
-/

namespace BatchVerify

/-- Statuses by source, and the invocations so far. -/
structure ScriptedVerifier where
  /-- The statuses that were set, the latest first. -/
  script : List (Path × Status) := []
  invocations : List Invocation := []
  deriving DecidableEq, Repr

namespace ScriptedVerifier

/-- Sets the status for a source. -/
def answer (verifier : ScriptedVerifier) (source : Path) (status : Status) : ScriptedVerifier :=
  { verifier with script := (source, status) :: verifier.script }

/-- The status for a source: what was set last for any spelling of it, else success. -/
def statusOf (verifier : ScriptedVerifier) (source : Path) : Status :=
  (verifier.script.find? fun entry => entry.1.Same source).elim .succeeded (·.2)

/-- The sources of the invocations so far. -/
def sources (verifier : ScriptedVerifier) : List Path :=
  verifier.invocations.filterMap Invocation.source?

/-- Answers by the source of an invocation; one without a source succeeds. -/
def run (invocation : Invocation) (verifier : ScriptedVerifier) :
    Verification × ScriptedVerifier :=
  ({ status := invocation.source?.elim .succeeded verifier.statusOf },
    { verifier with invocations := verifier.invocations ++ [invocation] })

end ScriptedVerifier

/-- The scripted verifier as a verifier. -/
def scriptedVerifier : Verifier ScriptedVerifier where
  run := ScriptedVerifier.run

end BatchVerify
