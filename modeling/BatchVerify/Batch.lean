import BatchVerify.Layout
import BatchVerify.Log.Record
import BatchVerify.Surroundings

/-!
# The batch run

Every group below the root is announced; every source in it is verified, once, in order. The run
ends with a report, or with a failure. What happens on the way is kept in a trace, so that the
outputs of the run and their order can be told apart from its result.
-/

namespace BatchVerify

/-- What can be noticed while a run goes on. -/
inductive Event where
  /-- A line of progress, with its end. -/
  | progress (line : String)
  | log (record : Log.Record)
  /-- What the verifier wrote to its standard output. -/
  | stdout (bytes : Bytes)
  /-- What the verifier wrote to its standard error. -/
  | stderr (bytes : Bytes)
  deriving DecidableEq, Repr

/-- How far a run has come. -/
structure Run (σ : Type) where
  state : σ
  report : Report := {}
  trace : List Event := []

/-- What a run depends on. -/
structure Setting (σ : Type) where
  tree : SourceTree σ
  verifier : Verifier σ
  config : Config
  /-- Writes a line of progress. A run cannot go on without telling how far it is. -/
  tell : String → σ → Except SystemError Unit × σ := fun _ state => (.ok (), state)

namespace Run

variable {σ : Type}

/-- Adds to the trace. -/
def emit (run : Run σ) (events : List Event) : Run σ := { run with trace := run.trace ++ events }

end Run

/-- The record about an entry that was passed over; one that leads nowhere is less serious. -/
def Skipped.record (skipped : Skipped) : Log.Record :=
  if skipped.cause.kind = .notFound then
    ⟨.debug, .tree, "skipping dangling entry", [("path", skipped.path.display)]⟩
  else
    ⟨.warn, .tree, "skipping unreadable entry",
      [("path", skipped.path.display), ("error", skipped.cause.message)]⟩

/-- The records about all entries of a listing that were passed over. -/
def Listing.events (listing : Listing) : List Event :=
  listing.skipped.map fun skipped => .log skipped.record

/-- What a verifier run wrote. -/
def Verification.events (verification : Verification) : List Event :=
  [.stdout verification.stdout, .stderr verification.stderr]

namespace Batch

variable {σ : Type}

/-- The record about a group with its number of sources. -/
def groupRecord (group : Group) (sources : Nat) : Log.Record :=
  ⟨.info, .batch, "processing group",
    [("group", Utf8.decodeLossy group.name), ("sources", toString sources)]⟩

/-- The record about a command that is about to run. -/
def commandRecord (invocation : Invocation) : Log.Record :=
  ⟨.debug, .batch, "running verifier", [("command", invocation.display)]⟩

/-- The record about a source that failed. -/
def failureRecord (source : Path) (status : Status) : Log.Record :=
  ⟨.warn, .batch, "verifier " ++ status.describe, [("source", source.display)]⟩

/-- The record about a run that came to its end. -/
def finishedRecord (report : Report) : Log.Record :=
  ⟨.info, .batch, "batch finished",
    [ ("processed", toString report.processed), ("succeeded", toString report.succeeded),
      ("failed", toString report.failed) ]⟩

/-- Verifies a source and records the outcome. -/
def verifySource (setting : Setting σ) (group : Group) (source : Source) (run : Run σ) :
    Run σ × Status :=
  let target := setting.config.layout.target group.name source.stem
  let invocation := Invocation.ofSource setting.config.verifier source.path target
  let (verification, state) := setting.verifier.run invocation run.state
  let status := verification.status
  let told := if status.isSuccess then [] else [Event.log (failureRecord source.path status)]
  ( { state
      report := run.report.record ⟨group.name, source.path, target, status⟩
      trace := run.trace ++ .log (commandRecord invocation) :: verification.events ++ told },
    status )

/-- Verifies sources in order, up to the first failure if that aborts the run. -/
def verifySources (setting : Setting σ) (group : Group) :
    List Source → Run σ → Run σ × Option Failure
  | [], run => (run, none)
  | source :: sources, run =>
    let (run, status) := verifySource setting group source run
    if status.isSuccess || setting.config.run.onError = .keepGoing then
      verifySources setting group sources run
    else (run, some (.verifier source.path status.describe run.report))

/-- The line of progress about a group, with its end. -/
def progressLine (group : Group) : String := group.path.display ++ ":\n"

/-- Tells the path of a group and counts it; what could not be told is not counted. -/
def announce (setting : Setting σ) (group : Group) (run : Run σ) : Run σ × Option Failure :=
  match setting.tell (progressLine group) run.state with
  | (.error cause, state) => ({ run with state }, some (.system cause))
  | (.ok (), state) =>
    ( { state
        report := run.report.recordGroup
        trace := run.trace ++ [.progress (progressLine group)] },
      none )

/-- The sources among the files of a listing. -/
def sourcesIn (setting : Setting σ) (listing : Listing) : List Source :=
  listing.kept.filterMap fun path =>
    Source.matching? path setting.config.layout.sourceExtension

/-- Finds the sources of a group. The output directory is made only for a group that has any. -/
def openGroup (setting : Setting σ) (group : Group) (run : Run σ) :
    Run σ × Except Failure (List Source) :=
  match setting.tree.listFiles group.path run.state with
  | .error failure => (run, .error failure)
  | .ok listing =>
    let sources := sourcesIn setting listing
    let run := run.emit (listing.events ++ [.log (groupRecord group sources.length)])
    if sources.isEmpty then (run, .ok [])
    else
      let (made, state) :=
        setting.tree.ensureDir (setting.config.layout.outputDir group.name) run.state
      ({ run with state }, made.map fun () => sources)

/-- Announces a group and verifies its sources. -/
def visitGroup (setting : Setting σ) (group : Group) (run : Run σ) : Run σ × Option Failure :=
  match announce setting group run with
  | (run, some failure) => (run, some failure)
  | (run, none) =>
    match openGroup setting group run with
    | (run, .error failure) => (run, some failure)
    | (run, .ok sources) => verifySources setting group sources run

/-- Visits groups in order, up to the first failure. -/
def visitGroups (setting : Setting σ) : List Group → Run σ → Run σ × Option Failure
  | [], run => (run, none)
  | group :: groups, run =>
    match visitGroup setting group run with
    | (run, none) => visitGroups setting groups run
    | stopped => stopped

/-- The end of a run that was stopped, or has visited all groups. -/
def finish : Run σ × Option Failure → Run σ × Except Failure Report
  | (run, some failure) => (run, .error failure)
  | (run, none) => (run.emit [.log (finishedRecord run.report)], .ok run.report)

/-- Runs the verifier over every source one level below the root. The root is checked before
anything else happens. -/
def execute (setting : Setting σ) (root : Path) (state : σ) : Run σ × Except Failure Report :=
  match setting.tree.checkRoot root state with
  | .error failure => ({ state }, .error failure)
  | .ok () =>
    match setting.tree.listGroups root state with
    | .error failure => ({ state }, .error failure)
    | .ok listing =>
      finish <|
        visitGroups setting (listing.kept.filterMap Group.ofPath?)
          { state, trace := listing.events }

/-- The lines of progress in a trace. -/
def progressLines (trace : List Event) : List String :=
  trace.filterMap fun
    | .progress line => some line
    | _ => none

/-- What a run wrote as its progress. -/
def progressText (trace : List Event) : String := String.join (progressLines trace)

end Batch

end BatchVerify
