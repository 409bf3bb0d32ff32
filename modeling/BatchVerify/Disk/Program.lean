import BatchVerify.Verifier.Command

/-!
# Programs on a disk

What a program does when it is run: it ends at once, or it stands in for a verifier and answers
each source as its rules say.
-/

namespace BatchVerify

/-- The answer of a stand-in to one source. -/
structure Rule where
  source : Bytes
  answer : ProcessEnd
  deriving DecidableEq, Repr

/-- What a program does. -/
inductive Program where
  /-- Ends at once with an exit code. -/
  | constant (exitCode : Int)
  /-- Notes its arguments, writes the prover log it is asked for and answers its source. -/
  | standIn (rules : List Rule)
  /-- Nothing that can be run, for all that the file is marked as a program. -/
  | unreadable
  deriving DecidableEq, Repr

/-- The exit code that a process asks for, as its caller sees it: one byte. -/
def ProcessEnd.exited (code : Int) (stdout stderr : Bytes) : ProcessEnd :=
  ⟨some (code % 256), stdout, stderr⟩

namespace Program

/-- The answer of a stand-in to a source: that of the first rule for it, else success. -/
def answer (rules : List Rule) (source : Bytes) : ProcessEnd :=
  ((rules.find? fun rule => rule.source = source).map (·.answer)).getD ⟨some 0, [], []⟩

/-- The prover log that an argument asks for: what follows the flag, if it is there. -/
def logPath (arg : Bytes) : Path :=
  let flag := Utf8.encode Invocation.logFlag
  if flag.isPrefixOf arg then ⟨arg.drop flag.length⟩ else ⟨arg⟩

/-- What a stand-in writes to the prover log of a source. -/
def logText (source : Bytes) : Bytes := Utf8.encode "log of " ++ source ++ Utf8.encode "\n"

end Program

end BatchVerify
