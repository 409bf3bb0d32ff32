import BatchVerify.Bytes

/-!
# The arguments of the command

The root directory is the one argument that is given by its position; all others are options. Each
option has a long form, some have a short one, and some take a value.
-/

namespace BatchVerify.CommandLine

/-- The options of the command. -/
inductive Opt where
  | config
  | verifier
  | outputRoot
  | timeLimit
  | onError
  | report
  | strict
  | verbose
  | help
  | version
  deriving DecidableEq, Repr

namespace Opt

/-- The options in the order in which the help shows them. -/
def all : List Opt :=
  [.config, .verifier, .outputRoot, .timeLimit, .onError, .report, .strict, .verbose, .help,
    .version]

/-- The long form, without its dashes. -/
def long : Opt → String
  | .config => "config"
  | .verifier => "verifier"
  | .outputRoot => "output-root"
  | .timeLimit => "time-limit"
  | .onError => "on-error"
  | .report => "report"
  | .strict => "strict"
  | .verbose => "verbose"
  | .help => "help"
  | .version => "version"

/-- The short form, without its dash. -/
def short? : Opt → Option Char
  | .config => some 'c'
  | .outputRoot => some 'o'
  | .timeLimit => some 't'
  | .verbose => some 'v'
  | .help => some 'h'
  | .version => some 'V'
  | _ => none

/-- What the value of an option is called, if it takes one. -/
def valueName? : Opt → Option String
  | .config => some "CONFIG"
  | .verifier => some "VERIFIER"
  | .outputRoot => some "OUTPUT_ROOT"
  | .timeLimit => some "SECS"
  | .onError => some "POLICY"
  | .report => some "FILE"
  | _ => none

/-- What an option is for. -/
def purpose : Opt → String
  | .config => "TOML configuration file"
  | .verifier => "Verifier executable (overrides config)"
  | .outputRoot => "Root of the mirrored output tree (overrides config)"
  | .timeLimit => "Value passed as -timeLimit:<SECS> (overrides config)"
  | .onError => "Behavior when a verifier invocation fails: continue or abort"
  | .report => "Write a JSON report of every invocation to this file"
  | .strict => "Exit with status 1 when any invocation failed"
  | .verbose => "Log progress details to stderr"
  | .help => "Print help"
  | .version => "Print version"

/-- The option takes a value. -/
def takesValue (o : Opt) : Bool := o.valueName?.isSome

/-- An option as messages name it. -/
def label (o : Opt) : String :=
  "--" ++ o.long ++ o.valueName?.elim "" fun name => " <" ++ name ++ ">"

/-- The option with a given long form. -/
def ofLong? (name : String) : Option Opt := all.find? fun o => o.long = name

/-- The option with a given short form. -/
def ofShort? (c : Char) : Option Opt := all.find? fun o => o.short? = some c

end Opt

/-- The root directory as messages name it. -/
def rootLabel : String := "<ROOT>"

/-- What an argument looks like before it is known what it is for. -/
inductive Shape where
  /-- Two dashes alone, after which no option follows. -/
  | escape
  /-- A long option, with the value after `=` if there is one. -/
  | long (name : Bytes) (value : Option Bytes)
  /-- Short options behind one dash. -/
  | cluster (letters : Bytes)
  | plain
  deriving DecidableEq, Repr

namespace Shape

/-- The byte that introduces options, `-`. -/
def dash : UInt8 := 0x2D

/-- The byte between an option and its value, `=`. -/
def equals : UInt8 := 0x3D

/-- A long option cut at its first `=`. -/
def ofLong (text : Bytes) : Shape :=
  match text.dropWhile (· ≠ equals) with
  | [] => .long text none
  | _ :: value => .long (text.takeWhile (· ≠ equals)) (some value)

/-- The shape of an argument. A dash alone is plain. -/
def ofArg (arg : Bytes) : Shape :=
  match arg with
  | [] => .plain
  | a :: rest =>
    if a ≠ dash then .plain
    else
      match rest with
      | [] => .plain
      | b :: name =>
        if b ≠ dash then .cluster rest
        else if name = [] then .escape
        else ofLong name

end Shape

end BatchVerify.CommandLine
