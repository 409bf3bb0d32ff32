import BatchVerify.CommandLine.Argument
import BatchVerify.Config.Basic
import BatchVerify.Decimal.Whole
import BatchVerify.Text.Terminal
import BatchVerify.Text.Utf8

/-!
# Usage

Why a command line is refused, and the texts that tell how it is used.
-/

namespace BatchVerify.CommandLine

open Terminal (emphasized)

/-- Why a value does not fit its option. -/
inductive ValueFault where
  | number (fault : Whole.Fault)
  /-- A number of seconds that is negative or too large. -/
  | outside (n : Int)
  | policy (text : String)
  deriving DecidableEq, Repr

/-- The largest number of seconds. -/
def maxSeconds : Nat := UInt32.size - 1

namespace ValueFault

/-- The text of a fault. -/
def message : ValueFault → String
  | .number fault => fault.message
  | .outside n => s!"{n} is not in 0..={maxSeconds}"
  | .policy text => FailurePolicy.unknownMessage text

end ValueFault

/-- Why a command line is refused. -/
inductive UsageError where
  /-- An argument that nothing takes. -/
  | unknown (text : String)
  /-- A value for an option that takes none. -/
  | surplusValue (value : String) (o : Opt)
  /-- No value for what a label names; an empty path is none. -/
  | missingValue (label : String)
  | repeated (o : Opt)
  | badValue (value : String) (o : Opt) (fault : ValueFault)
  /-- A value that has to be text, and is not. -/
  | notText
  | missingRoot
  deriving DecidableEq, Repr

namespace UsageError

/-- The text of an error. What it is about stands out. -/
def message : UsageError → String
  | .unknown text => "unexpected argument '" ++ emphasized text ++ "' found"
  | .surplusValue value o =>
    "unexpected value '" ++ emphasized value ++ "' for '" ++ emphasized o.label ++
      "' found; no more were expected"
  | .missingValue label =>
    "a value is required for '" ++ emphasized label ++ "' but none was supplied"
  | .repeated o => "the argument '" ++ emphasized o.label ++ "' cannot be used multiple times"
  | .badValue value o fault =>
    "invalid value '" ++ emphasized value ++ "' for '" ++ emphasized o.label ++ "': " ++
      fault.message
  | .notText => "invalid UTF-8 was detected in one or more arguments"
  | .missingRoot =>
    "the following required arguments were not provided:\n  " ++ emphasized rootLabel

/-- The form of a command line is told with an error, unless it is only about a value. -/
def tellsUsage : UsageError → Bool
  | .missingValue _ | .badValue .. => false
  | _ => true

end UsageError

/-- The name of the command. -/
def commandName : String := "smt-batch"

/-- The name of the command with its version. -/
def versionText : String := commandName ++ " 0.1.0\n"

/-- The form of a command line. -/
def usageLine : String := "Usage: " ++ commandName ++ " [OPTIONS] " ++ rootLabel ++ "\n"

/-- The forms of an option as the help lists them. -/
def Opt.forms (o : Opt) : String :=
  o.short?.elim "    " (fun c => String.ofList ['-', c, ',', ' ']) ++ o.label

/-- A text filled up with blanks to a width. -/
def fillTo (width : Nat) (text : String) : String :=
  text ++ String.ofList (List.replicate (width - text.length) ' ')

/-- The help. -/
def helpText : String :=
  let width := (Opt.all.map fun o => o.forms.length).foldl max 0
  let rows := Opt.all.map fun o => "  " ++ fillTo width o.forms ++ "  " ++ o.purpose ++ "\n"
  "Run the Boogie verifier over every .bpl file one level below a directory\n\n" ++
    usageLine ++ "\nArguments:\n  " ++ rootLabel ++
    "  Root directory; each immediate subdirectory is processed as a group\n\nOptions:\n" ++
    String.join rows

/-- What is told about a command line that is refused. It is not told on a terminal, so that
control sequences in it, those of the arguments as well, are left out. -/
def UsageError.told (error : UsageError) : Bytes :=
  Terminal.plain <| Utf8.encode <|
    emphasized "error:" ++ " " ++ error.message ++ "\n" ++
      (if error.tellsUsage then "\n" ++ usageLine else "") ++
      "\nFor more information, try '" ++ emphasized "--help" ++ "'.\n"

end BatchVerify.CommandLine
