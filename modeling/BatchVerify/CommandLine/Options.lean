import BatchVerify.CommandLine.Usage
import BatchVerify.Config.Load

/-!
# Reading a command line

Arguments are read from the left. A value that stands apart from its option waits until the next
option or position begins, and is taken then: a fault of its own is told only if what follows it is
known. An option is given once at most, and the root exactly once.
-/

namespace BatchVerify.CommandLine

/-- What a command line asks for. -/
structure Options where
  root : Path
  config : Option Path := none
  overrides : Overrides := {}
  report : Option Path := none
  strict : Bool := false
  verbose : Bool := false
  deriving DecidableEq, Repr

/-- Why a command line is no order to run a batch. -/
inductive Stop where
  | refused (error : UsageError)
  | help
  | version
  deriving DecidableEq, Repr

/-- What waits to be taken. -/
inductive Pending where
  | root (value : Bytes)
  | option (o : Opt) (value : Option Bytes)
  deriving DecidableEq, Repr

/-- How far a command line has been read. -/
structure Reading where
  root : Option Path := none
  config : Option Path := none
  overrides : Overrides := {}
  report : Option Path := none
  strict : Bool := false
  verbose : Bool := false
  pending : Option Pending := none
  /-- No option follows. -/
  escaped : Bool := false
  deriving DecidableEq, Repr

/-- A path, which must not be empty. -/
def readPath (label : String) (value : Bytes) : Except Stop Path :=
  if value = [] then .error (.refused (.missingValue label)) else .ok ⟨value⟩

/-- The text of a value. -/
def readText (value : Bytes) : Except Stop String :=
  match Utf8.decode? value with
  | some text => .ok text
  | none => .error (.refused .notText)

/-- A number of seconds. -/
def readSeconds (o : Opt) (value : Bytes) : Except Stop UInt32 := do
  let text ← readText value
  match Whole.read text.toList with
  | .error fault => .error (.refused (.badValue text o (.number fault)))
  | .ok n =>
    if 0 ≤ n ∧ n ≤ maxSeconds then .ok n.toNat.toUInt32
    else .error (.refused (.badValue text o (.outside n)))

/-- A policy for failures. -/
def readPolicy (o : Opt) (value : Bytes) : Except Stop FailurePolicy := do
  let text ← readText value
  match FailurePolicy.ofSpelling? text with
  | some policy => .ok policy
  | none => .error (.refused (.badValue text o (.policy text)))

namespace Reading

/-- The option was given before. -/
def has (reading : Reading) : Opt → Bool
  | .config => reading.config.isSome
  | .verifier => reading.overrides.verifier.isSome
  | .outputRoot => reading.overrides.outputRoot.isSome
  | .timeLimit => reading.overrides.timeLimit.isSome
  | .onError => reading.overrides.onError.isSome
  | .report => reading.report.isSome
  | .strict => reading.strict
  | .verbose => reading.verbose
  | .help | .version => false

/-- Changes the overrides. -/
def override (reading : Reading) (change : Overrides → Overrides) : Reading :=
  { reading with overrides := change reading.overrides }

/-- Takes an option with its value. -/
def takeValue (reading : Reading) (o : Opt) (value : Bytes) : Except Stop Reading := do
  if reading.has o then throw (.refused (.repeated o))
  match o with
  | .config =>
    let path ← readPath o.label value
    return { reading with config := some path }
  | .report =>
    let path ← readPath o.label value
    return { reading with report := some path }
  | .verifier =>
    let path ← readPath o.label value
    return reading.override fun overrides => { overrides with verifier := some path }
  | .outputRoot =>
    let path ← readPath o.label value
    return reading.override fun overrides => { overrides with outputRoot := some path }
  | .timeLimit =>
    let seconds ← readSeconds o value
    return reading.override fun overrides => { overrides with timeLimit := some seconds }
  | .onError =>
    let policy ← readPolicy o value
    return reading.override fun overrides => { overrides with onError := some policy }
  | .strict | .verbose | .help | .version => return reading

/-- Takes what was waiting. -/
def settle (reading : Reading) : Except Stop Reading := do
  let rest := { reading with pending := none }
  match reading.pending with
  | none => return rest
  | some (.root value) =>
    let path ← readPath rootLabel value
    return { rest with root := some path }
  | some (.option o none) => throw (.refused (.missingValue o.label))
  | some (.option o (some value)) => rest.takeValue o value

/-- Takes an option that has no value. -/
def takeSwitch (reading : Reading) (o : Opt) : Except Stop Reading := do
  let reading ← reading.settle
  if reading.has o then throw (.refused (.repeated o))
  match o with
  | .help => throw .help
  | .version => throw .version
  | .strict => return { reading with strict := true }
  | .verbose => return { reading with verbose := true }
  | _ => return reading

/-- Takes an option that has a value; one that does not stand with it is awaited. -/
def takeOption (reading : Reading) (o : Opt) (attached : Option Bytes) : Except Stop Reading := do
  let reading ← reading.settle
  match attached with
  | some value => reading.takeValue o value
  | none => return { reading with pending := some (.option o none) }

/-- Refuses an argument that nothing takes. -/
def unknown {α : Type} (text : String) : Except Stop α := .error (.refused (.unknown text))

/-- Reads a long option. -/
def readLong (reading : Reading) (name : Bytes) (value : Option Bytes) : Except Stop Reading :=
  match (Utf8.decode? name).bind Opt.ofLong? with
  | none => unknown ("--" ++ Utf8.decodeLossy name)
  | some o =>
    if o.takesValue then reading.takeOption o value
    else
      match value with
      | some value => .error (.refused (.surplusValue (Utf8.decodeLossy value) o))
      | none => reading.takeSwitch o

/-- Reads short options; the rest of the letters after one that takes a value is its value, with
or without `=` before it. -/
def readCluster (reading : Reading) : List Utf8.Part → Except Stop Reading
  | [] => .ok reading
  | .stray bytes :: rest =>
    unknown ("-" ++ Utf8.decodeLossy (bytes ++ rest.flatMap Utf8.Part.bytes))
  | .char c :: rest =>
    match Opt.ofShort? c with
    | none => unknown (String.ofList ['-', c])
    | some o =>
      if o.takesValue then
        reading.takeOption o <|
          match rest.flatMap Utf8.Part.bytes with
          | [] => none
          | b :: value => some (if b = Shape.equals then value else b :: value)
      else do (← reading.takeSwitch o).readCluster rest

/-- Reads an argument by its position. -/
def readPosition (reading : Reading) (arg : Bytes) : Except Stop Reading :=
  if reading.root.isSome || reading.pending matches some (.root _) then
    unknown (Utf8.decodeLossy arg)
  else do return { ← reading.settle with pending := some (.root arg) }

/-- Reads an argument that is no option: the value that is awaited, or a position. -/
def readPlain (reading : Reading) (arg : Bytes) : Except Stop Reading :=
  match reading.pending with
  | some (.option o none) => .ok { reading with pending := some (.option o (some arg)) }
  | _ => reading.readPosition arg

/-- Reads an argument. -/
def step (reading : Reading) (arg : Bytes) : Except Stop Reading :=
  if reading.escaped then reading.readPosition arg
  else
    match Shape.ofArg arg with
    | .escape => .ok { reading with escaped := true }
    | .long name value => reading.readLong name value
    | .cluster letters => reading.readCluster (Utf8.parts letters)
    | .plain => reading.readPlain arg

/-- What a command line asks for that has been read to its end. -/
def finish (reading : Reading) : Except Stop Options := do
  let reading ← reading.settle
  match reading.root with
  | none => throw (.refused .missingRoot)
  | some root =>
    return { reading with root }

end Reading

/-- What a command line asks for. -/
def Options.ofArgs (args : List Bytes) : Except Stop Options := do
  let reading ← args.foldlM Reading.step {}
  reading.finish

end BatchVerify.CommandLine
