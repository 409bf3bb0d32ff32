import BatchVerify.Batch
import BatchVerify.CommandLine.Options
import BatchVerify.Config.Display
import BatchVerify.Log.Filter
import BatchVerify.Report.File

/-!
# Running a command line

A command line is read, its configuration loaded, its batch run and its report written; then the
totals and the sources that failed are told. An aborted run is told like a complete one, and its
failure after that. Whatever else fails ends the command at once.
-/

namespace BatchVerify.CommandLine

/-- What a command line acts on. Its two outputs are no part of it: they take whatever is written. -/
structure World (σ : Type) where
  tree : SourceTree σ
  /-- The verifier, which keeps standard error with a failure if it is told to. -/
  verifier : (capture : Bool) → Verifier σ
  read : σ → Path → FileContent
  write : Path → Bytes → σ → Except SystemError σ

/-- How the batch of a command line ended. -/
structure Finished (σ : Type) where
  trace : List Event := []
  /-- The report that is told about at the end. -/
  report : Option Report := none
  /-- The failure that is told after it. -/
  failure : Option Failure := none
  state : σ

/-- A piece of what is written to standard error. -/
inductive Remark where
  | log (record : Log.Record)
  | plain (bytes : Bytes)
  deriving DecidableEq, Repr

namespace Remark

/-- A piece as it is written. -/
def written : Remark → Bytes
  | .log record => Utf8.encode (record.line ++ "\n")
  | .plain bytes => bytes

/-- The line with which a record begins. A value with line ends makes it go on after that, but no
further line shows that it belongs to a record. -/
def head? : Remark → Option String
  | .log record => some (String.ofList (record.line.toList.takeWhile (· ≠ '\n')))
  | .plain _ => none

/-- What is left of a piece without the line with which a record begins. -/
def aside : Remark → Bytes
  | .log record =>
    let lines := record.line.toList ++ ['\n']
    Utf8.encode (String.ofList (lines.dropWhile (· ≠ '\n')).tail)
  | .plain bytes => bytes

end Remark

/-- What a command line leads to. -/
inductive Response (σ : Type) where
  | help
  | version
  | refused (error : UsageError)
  | ran (options : Options) (finished : Finished σ)

variable {σ : Type}

/-- Writes the report of a run, complete or aborted, if that is asked for. A report that cannot be
written is not told about. -/
def conclude (world : World σ) (options : Options) (report : Report) (aborted : Option Failure)
    (trace : List Event) (state : σ) : Finished σ :=
  let saved := match options.report with
    | some path => report.save world.write path state
    | none => .ok state
  match saved with
  | .ok state => { trace, report := some report, failure := aborted, state }
  | .error failure => { trace, failure := some failure, state }

/-- Runs the batch that a command line asks for. -/
def runBatch (world : World σ) (options : Options) (state : σ) : Finished σ :=
  match Config.load (world.read state) options.config options.overrides with
  | .error failure => { failure := some failure, state }
  | .ok config =>
    let setting : Setting σ :=
      { tree := world.tree, verifier := world.verifier config.run.captureStderr, config }
    let (run, result) := Batch.execute setting options.root state
    let trace := .log config.record :: run.trace
    match result with
    | .ok report => conclude world options report none trace run.state
    | .error failure =>
      match failure.takeReport with
      | (some report, failure) => conclude world options report (some failure) trace run.state
      | (none, failure) => { trace, failure := some failure, state := run.state }

/-- Runs a command line. -/
def respond (world : World σ) (args : List Bytes) (state : σ) : Response σ :=
  match Options.ofArgs args with
  | .error .help => .help
  | .error .version => .version
  | .error (.refused error) => .refused error
  | .ok options => .ran options (runBatch world options state)

/-- The line about a source that failed. -/
def failedLine (outcome : Outcome) : String :=
  "  FAILED " ++ outcome.source.display ++ ": " ++ outcome.status.describe ++ "\n"

/-- What is told about a report: the totals, then every source that failed. -/
def reportText (report : Report) : String :=
  report.summary ++ "\n" ++ String.join (report.failures.map failedLine)

/-- What is told about a failure. -/
def failureText (failure : Failure) : String := "Error: " ++ failure.message ++ "\n"

namespace Finished

/-- What a batch wrote to standard output: progress and what the verifier wrote, in the order in
which they came, then what is told about its report. -/
def stdout (finished : Finished σ) : Bytes :=
  finished.trace.flatMap (fun
    | .progress line => Utf8.encode line
    | .stdout bytes => bytes
    | _ => []) ++
  (finished.report.map fun report => Utf8.encode (reportText report)).getD []

/-- What a batch wrote to standard error: the records of the log that pass a filter and what the
verifier wrote, in the order in which they came, then what is told about its failure. -/
def remarks (finished : Finished σ) (filter : Log.Filter) : List Remark :=
  finished.trace.filterMap (fun
    | .stderr bytes => some (.plain bytes)
    | .log record => if filter.passes record then some (.log record) else none
    | _ => none) ++
  (finished.failure.map fun failure => Remark.plain (Utf8.encode (failureText failure))).toList

end Finished

namespace Response

/-- The exit code: 2 for a command line that is refused, and 1 for a failure or, if that is asked
for, for any source that failed. -/
def exitCode : Response σ → Nat
  | .help | .version => 0
  | .refused _ => 2
  | .ran options finished =>
    if finished.failure.isSome || (options.strict && finished.report.any Report.hasFailures) then 1
    else 0

/-- What is written to standard output. -/
def stdout : Response σ → Bytes
  | .help => Utf8.encode helpText
  | .version => Utf8.encode versionText
  | .refused _ => []
  | .ran _ finished => finished.stdout

/-- What is written to standard error, for a filter that the environment may ask for. -/
def remarks (wanted : Option Bytes) : Response σ → List Remark
  | .help | .version => []
  | .refused error => [.plain error.told]
  | .ran options finished => finished.remarks (Log.Filter.ofEnvironment options.verbose wanted)

/-- The log: the lines of standard error with which its records begin. -/
def logged (wanted : Option Bytes) (response : Response σ) : List String :=
  (response.remarks wanted).filterMap Remark.head?

/-- Standard error without the lines of the log. -/
def stderr (wanted : Option Bytes) (response : Response σ) : Bytes :=
  (response.remarks wanted).flatMap Remark.aside

/-- The state of the world after a command that started in a given one. -/
def state (before : σ) : Response σ → σ
  | .ran _ finished => finished.state
  | _ => before

end Response

end BatchVerify.CommandLine
