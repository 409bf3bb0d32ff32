import BatchVerify.Config.Basic

/-!
# Invocations

The command line of one verifier run, an argument being a byte sequence of its own: no shell reads
it, so blanks and quotes mean nothing.
-/

namespace BatchVerify

/-- A program and its arguments. -/
structure Invocation where
  program : Path
  args : List Bytes
  deriving DecidableEq, Repr

namespace Invocation

/-- What precedes the target in the argument that names it. -/
def logFlag : String := "-proverLog:"

/-- What precedes the number of seconds in the argument that limits them. -/
def limitFlag : String := "-timeLimit:"

/-- The run of the verifier on a source:
`<program> <mode flag> <source> -proverLog:<target> -timeLimit:<seconds>`. -/
def ofSource (settings : VerifierSettings) (source target : Path) : Invocation :=
  { program := settings.program
    args :=
      [ Utf8.encode settings.modeFlag,
        source.bytes,
        Utf8.encode logFlag ++ target.bytes,
        Utf8.encode (limitFlag ++ toString settings.timeLimit) ] }

/-- The source of a run: the second argument. -/
def source? (invocation : Invocation) : Option Path := invocation.args[1]?.map Path.mk

/-- A command line as shown to a reader. -/
def display (invocation : Invocation) : String :=
  " ".intercalate (invocation.program.display :: invocation.args.map Utf8.decodeLossy)

end Invocation

end BatchVerify
