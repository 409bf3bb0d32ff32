import BatchVerify.CommandLine.Run
import BatchVerify.Proofs.Batch.Order

/-!
# How the batch of a command line ends

The configuration does not load; the run fails and hands over no report; a report is handed over that
cannot be written; or one is handed over and told (`CommandLine.runBatch_ending`). What is written to the
two outputs is told by the trace of the run and by the ending.
-/

namespace BatchVerify

/-- A failure that hands over its report tells the same as before. -/
theorem Failure.message_takeReport (failure : Failure) :
    failure.takeReport.2.message = failure.message := by
  cases failure <;> rfl

theorem Failure.takeReport_of_none {failure : Failure} (h : failure.takeReport.1 = none) :
    failure.takeReport.2 = failure := by
  cases failure <;> first | rfl | cases h

/-- How failures read: what went wrong, with the path, the cause and the details that belong to it. -/
inductive Failure.Says : Failure → String → Prop
  | system (cause : SystemError) : Says (.system cause) cause.message
  | config (fault : ConfigFault) : Says (.config fault) fault.message
  | document (fault : DocumentFault) :
    Says (.document fault) ("TOML parse error: " ++ fault.message)
  | configMissing (path : Path) :
    Says (.configMissing path) ("Config file not found: " ++ path.display)
  | rootMissing (path : Path) :
    Says (.rootMissing path) ("Root directory not found: " ++ path.display)
  | rootNotDirectory (path : Path) : Says (.rootNotDirectory path) ("Not a directory: " ++ path.display)
  | outputDirectory (path : Path) (cause : SystemError) : Says (.outputDirectory path cause)
    ("Failed to create output directory " ++ path.display ++ ": " ++ cause.message)
  | verifier (source : Path) (details : String) (report : Report) :
    Says (.verifier source details report) ("Verifier failed on " ++ source.display ++ ": " ++ details)
  | unwritable (path : Path) (cause : SystemError) : Says (.unreported (.unwritable path cause))
    ("Failed to write report: " ++ (path.display ++ ": " ++ cause.message))
  | unreported (text : String) :
    Says (.unreported (.other text)) ("Failed to write report: " ++ text)

theorem Failure.says_message (failure : Failure) : failure.Says failure.message := by
  cases failure with
  | unreported fault => cases fault <;> constructor
  | _ => constructor

namespace CommandLine

open Batch

variable {σ : Type} {world : World σ} {options : Options} {state saved : σ} {config : Config}
  {report : Report}

/-! ## The parts of a batch -/

namespace World

/-- The configuration of a command line. -/
def loaded (world : World σ) (options : Options) (state : σ) : Except Failure Config :=
  Config.load (world.read state) options.config options.overrides

/-- What the batch of a command line depends on. -/
def setting (world : World σ) (config : Config) : Setting σ :=
  { tree := world.tree, verifier := world.verifier config.run.captureStderr, config }

/-- The batch run of a command line. -/
def ran (world : World σ) (options : Options) (config : Config) (state : σ) :
    Run σ × Except Failure Report :=
  execute (world.setting config) options.root state

/-- What can be noticed while a batch goes on. -/
def trace (world : World σ) (options : Options) (state : σ) : List Event :=
  match world.loaded options state with
  | .ok config => .log config.record :: (world.ran options config state).1.trace
  | .error _ => []

theorem trace_of_loaded (h : world.loaded options state = .ok config) :
    world.trace options state = .log config.record :: (world.ran options config state).1.trace := by
  rw [trace, h]

end World

/-- A report is written if that is asked for, and this is the state after it. -/
def Saved (world : World σ) (options : Options) (report : Report) (state saved : σ) : Prop :=
  match options.report with
  | some path => world.write path (Utf8.encode report.fileText) state = .ok saved
  | none => saved = state

/-- A report can be written, or is not asked for. -/
def Saves (world : World σ) (options : Options) (report : Report) (state : σ) : Prop :=
  ∀ path, options.report = some path →
    ∃ saved, world.write path (Utf8.encode report.fileText) state = .ok saved

theorem saves_iff_all : Saves world options report state ↔
    (options.report.all fun path =>
      (world.write path (Utf8.encode report.fileText) state).toBool) = true := by
  unfold Saves
  cases options.report with
  | none => simp
  | some path =>
    cases hwrite : world.write path (Utf8.encode report.fileText) state <;>
      simp [Except.toBool, hwrite]

instance : Decidable (Saves world options report state) := decidable_of_iff _ saves_iff_all.symm

theorem saves_iff : Saves world options report state ↔ ∃ saved, Saved world options report state saved := by
  unfold Saves Saved
  cases options.report with
  | none => simp
  | some path => simp

theorem exists_of_not_saves (h : ¬ Saves world options report state) :
    ∃ path cause, options.report = some path ∧
      world.write path (Utf8.encode report.fileText) state = .error cause := by
  unfold Saves at h
  push Not at h
  obtain ⟨path, hpath, hfails⟩ := h
  cases hwrite : world.write path (Utf8.encode report.fileText) state with
  | error cause => exact ⟨path, cause, hpath, hwrite⟩
  | ok saved => exact absurd hwrite (hfails saved)

/-- The failure that a run was stopped by, without the report that it carried. -/
def stopOf : Except Failure Report → Option Failure
  | .ok _ => none
  | .error failure => some failure.takeReport.2

/-! ## Endings -/

/-- The ways in which the batch of a command line ends, each with what leads to it and what it leaves
behind. -/
inductive Ending (world : World σ) (options : Options) (state : σ) : Finished σ → Prop
  /-- There is no configuration. -/
  | unloaded {failure : Failure} (hload : world.loaded options state = .error failure) :
    Ending world options state { failure := some failure, state }
  /-- The run fails and leaves no report. -/
  | failed {config : Config} {failure : Failure} (hload : world.loaded options state = .ok config)
    (hrun : (world.ran options config state).2 = .error failure)
    (hnone : failure.takeReport.1 = none) :
    Ending world options state
      { trace := world.trace options state, failure := some failure,
        state := (world.ran options config state).1.state }
  /-- There is a report that cannot be written. -/
  | unsaved {config : Config} {report : Report} {path : Path} {cause : SystemError}
    (hload : world.loaded options state = .ok config)
    (hreport : handedOver (world.ran options config state).2 = some report)
    (hpath : options.report = some path)
    (hwrite : world.write path (Utf8.encode report.fileText)
      (world.ran options config state).1.state = .error cause) :
    Ending world options state
      { trace := world.trace options state, failure := some (.unreported (.unwritable path cause)),
        state := (world.ran options config state).1.state }
  /-- There is a report, and it is told. -/
  | told {config : Config} {report : Report} {saved : σ}
    (hload : world.loaded options state = .ok config)
    (hreport : handedOver (world.ran options config state).2 = some report)
    (hsaved : Saved world options report (world.ran options config state).1.state saved) :
    Ending world options state
      { trace := world.trace options state, report := some report,
        failure := stopOf (world.ran options config state).2, state := saved }

theorem conclude_of_saved (aborted : Option Failure) (trace : List Event)
    (h : Saved world options report state saved) :
    conclude world options report aborted trace state =
      { trace, report := some report, failure := aborted, state := saved } := by
  unfold Saved at h
  unfold conclude
  cases hpath : options.report with
  | none =>
    rw [hpath] at h
    subst h
    rfl
  | some path =>
    rw [hpath] at h
    simp only [Report.save, h]

theorem conclude_of_unsaved {path : Path} {cause : SystemError} (aborted : Option Failure)
    (trace : List Event) (hpath : options.report = some path)
    (h : world.write path (Utf8.encode report.fileText) state = .error cause) :
    conclude world options report aborted trace state =
      { trace, failure := some (.unreported (.unwritable path cause)), state } := by
  unfold conclude
  rw [hpath]
  simp only [Report.save, h]

theorem runBatch_of_loaded (hload : world.loaded options state = .ok config) :
    runBatch world options state =
      match (world.ran options config state).2 with
      | .ok report =>
        conclude world options report none (world.trace options state)
          (world.ran options config state).1.state
      | .error failure =>
        match failure.takeReport with
        | (some report, failure) =>
          conclude world options report (some failure) (world.trace options state)
            (world.ran options config state).1.state
        | (none, failure) =>
          { trace := world.trace options state, failure := some failure,
            state := (world.ran options config state).1.state } := by
  rw [World.trace_of_loaded hload]
  rw [World.loaded] at hload
  rw [runBatch, hload]
  rfl

/-- A report that is handed over is written and told, be it that of a run that was aborted. -/
theorem runBatch_of_handedOver (hload : world.loaded options state = .ok config)
    (hreport : handedOver (world.ran options config state).2 = some report) :
    runBatch world options state =
      conclude world options report (stopOf (world.ran options config state).2)
        (world.trace options state) (world.ran options config state).1.state := by
  rw [runBatch_of_loaded hload]
  cases hrun : (world.ran options config state).2 with
  | ok whole =>
    rw [hrun] at hreport
    cases hreport
    rfl
  | error failure =>
    rw [hrun] at hreport
    rcases htake : failure.takeReport with ⟨carried, failure'⟩
    rw [handedOver_error, htake] at hreport
    dsimp only at hreport
    subst hreport
    rw [stopOf, htake]
    dsimp only
    rw [htake]

/-- A run that hands over no report is told by its failure. -/
theorem runBatch_of_failed {failure : Failure} (hload : world.loaded options state = .ok config)
    (hrun : (world.ran options config state).2 = .error failure)
    (hnone : failure.takeReport.1 = none) :
    runBatch world options state =
      { trace := world.trace options state, failure := some failure,
        state := (world.ran options config state).1.state } := by
  have htake : failure.takeReport = (none, failure) :=
    Prod.ext hnone (Failure.takeReport_of_none hnone)
  rw [runBatch_of_loaded hload, hrun]
  dsimp only
  rw [htake]

/-- A batch ends in one of these ways. -/
theorem runBatch_ending (world : World σ) (options : Options) (state : σ) :
    Ending world options state (runBatch world options state) := by
  cases hload : world.loaded options state with
  | error failure =>
    have hend : runBatch world options state = { failure := some failure, state } := by
      rw [World.loaded] at hload
      rw [runBatch, hload]
    rw [hend]
    exact .unloaded hload
  | ok config =>
    cases hreport : handedOver (world.ran options config state).2 with
    | some report =>
      rw [runBatch_of_handedOver hload hreport]
      by_cases hsaves : Saves world options report (world.ran options config state).1.state
      · obtain ⟨saved, hsaved⟩ := saves_iff.mp hsaves
        rw [conclude_of_saved _ _ hsaved]
        exact .told hload hreport hsaved
      · obtain ⟨path, cause, hpath, hwrite⟩ := exists_of_not_saves hsaves
        rw [conclude_of_unsaved _ _ hpath hwrite]
        exact .unsaved hload hreport hpath hwrite
    | none =>
      cases hrun : (world.ran options config state).2 with
      | ok whole =>
        rw [hrun] at hreport
        cases hreport
      | error failure =>
        rw [hrun, handedOver_error] at hreport
        rw [runBatch_of_failed hload hrun hreport]
        exact .failed hload hrun hreport

theorem Ending.trace_eq {finished : Finished σ} (h : Ending world options state finished) :
    finished.trace = world.trace options state := by
  cases h with
  | unloaded hload =>
    rw [World.trace, hload]
  | failed => rfl
  | unsaved => rfl
  | told => rfl

section

variable {args : List Bytes}

theorem respond_of_args (hargs : Options.ofArgs args = .ok options) :
    respond world args state = .ran options (runBatch world options state) := by
  rw [respond, hargs]

theorem respond_of_saved (hargs : Options.ofArgs args = .ok options)
    (hload : world.loaded options state = .ok config)
    (hreport : handedOver (world.ran options config state).2 = some report)
    (hsaved : Saved world options report (world.ran options config state).1.state saved) :
    respond world args state = .ran options
      { trace := world.trace options state, report := some report,
        failure := stopOf (world.ran options config state).2, state := saved } := by
  rw [respond_of_args hargs, runBatch_of_handedOver hload hreport, conclude_of_saved _ _ hsaved]

theorem respond_of_unsaved {path : Path} {cause : SystemError}
    (hargs : Options.ofArgs args = .ok options) (hload : world.loaded options state = .ok config)
    (hreport : handedOver (world.ran options config state).2 = some report)
    (hpath : options.report = some path)
    (hwrite : world.write path (Utf8.encode report.fileText)
      (world.ran options config state).1.state = .error cause) :
    respond world args state = .ran options
      { trace := world.trace options state, failure := some (.unreported (.unwritable path cause)),
        state := (world.ran options config state).1.state } := by
  rw [respond_of_args hargs, runBatch_of_handedOver hload hreport,
    conclude_of_unsaved _ _ hpath hwrite]

end

/-! ## What is written to the outputs -/

/-- What a trace brings to standard output: the lines of progress and what the verifier wrote there. -/
def shown (trace : List Event) : Bytes :=
  trace.flatMap fun
    | .progress line => Utf8.encode line
    | .stdout bytes => bytes
    | _ => []

/-- What a trace brings to standard error: the records of the log that pass a filter and what the
verifier wrote there. -/
def noted (filter : Log.Filter) (trace : List Event) : List Remark :=
  trace.filterMap fun
    | .stderr bytes => some (.plain bytes)
    | .log record => if filter.passes record then some (.log record) else none
    | _ => none

/-- The line about a failure. -/
def errorLine (failure : Failure) : Remark := .plain (Utf8.encode (failureText failure))

theorem Finished.stdout_eq (finished : Finished σ) :
    finished.stdout = shown finished.trace ++
      (finished.report.map fun report => Utf8.encode (reportText report)).getD [] := rfl

theorem Finished.remarks_eq (finished : Finished σ) (filter : Log.Filter) :
    finished.remarks filter =
      noted filter finished.trace ++ (finished.failure.map errorLine).toList := rfl

/-- Apart from the log, a trace brings to standard error what the verifier wrote there. -/
theorem plain_mem_noted_iff {filter : Log.Filter} {trace : List Event} {bytes : Bytes} :
    .plain bytes ∈ noted filter trace ↔ .stderr bytes ∈ trace := by
  rw [noted, List.mem_filterMap]
  constructor
  · rintro ⟨event, hmem, hevent⟩
    cases event with
    | progress line => cases hevent
    | log record =>
      dsimp only at hevent
      split_ifs at hevent
      cases hevent
    | stdout bytes => cases hevent
    | stderr bytes =>
      cases hevent
      exact hmem
  · intro hmem
    exact ⟨_, hmem, rfl⟩

theorem shown_trace (hload : world.loaded options state = .ok config) :
    shown (world.trace options state) = shown (world.ran options config state).1.trace := by
  rw [World.trace_of_loaded hload]
  rfl

theorem errorLine_takeReport (failure : Failure) : errorLine failure.takeReport.2 = errorLine failure := by
  rw [errorLine, errorLine, failureText, failureText, failure.message_takeReport]

/-- What is told about a report, word by word: the totals, then every outcome that is no success. -/
theorem reportText_eq (report : Report) :
    reportText report =
      s!"Processed {report.processed} file(s): {report.succeeded} succeeded, {report.failed} failed" ++
        "\n" ++ String.join ((report.outcomes.filter (·.status ≠ .succeeded)).map fun outcome =>
          "  FAILED " ++ outcome.source.display ++ ": " ++ outcome.status.describe ++ "\n") := by
  rw [reportText, Report.failures_eq]
  rfl

theorem encode_reportText_ne_nil (report : Report) : Utf8.encode (reportText report) ≠ [] := by
  intro h
  rw [reportText, Utf8.encode_append, Utf8.encode_append] at h
  obtain ⟨hsummary, -⟩ := List.append_eq_nil_iff.mp h
  obtain ⟨-, hend⟩ := List.append_eq_nil_iff.mp hsummary
  exact absurd hend (by decide)

/-- Where the verifier writes nothing to standard output, there is nothing but progress. -/
theorem shown_of_silent {trace : List Event} (h : ∀ bytes, .stdout bytes ∈ trace → bytes = []) :
    shown trace = Utf8.encode (progressText trace) := by
  induction trace with
  | nil => rfl
  | cons event trace ih =>
    have ih := ih fun bytes hmem => h bytes (List.mem_cons_of_mem _ hmem)
    unfold shown at ih ⊢
    rw [List.flatMap_cons, ih]
    cases event with
    | progress line =>
      show Utf8.encode line ++ Utf8.encode (progressText trace) = _
      rw [← Utf8.encode_append]
      show _ = Utf8.encode (String.join (line :: progressLines trace))
      rw [String.join_cons, progressText]
    | log record => rfl
    | stdout bytes =>
      show bytes ++ Utf8.encode (progressText trace) = _
      rw [h bytes List.mem_cons_self]
      rfl
    | stderr bytes => rfl

end CommandLine

end BatchVerify
