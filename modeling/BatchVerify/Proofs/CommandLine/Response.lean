import BatchVerify.Machine
import BatchVerify.Proofs.CommandLine.Ending
import BatchVerify.Proofs.Disk.Writing
import BatchVerify.Proofs.Report.RoundTrip

/-!
# What a command line tells, and how it exits

A report is told exactly if it can be written or need not be (`CommandLine.respond_tells_iff`). The exit
code, the line about a failure and the report file of a command line follow from how its batch ends
(`CommandLine.respond_exit`).
-/

namespace BatchVerify

/-- What was written is what is read. -/
def CommandLine.World.ReadsBack {σ : Type} (world : World σ) : Prop :=
  ∀ {path : Path} {content : Bytes} {state saved : σ},
    world.write path content state = .ok saved → world.read saved path = .bytes content

theorem Machine.readsBack_world : Machine.world.ReadsBack := by
  intro path content machine saved h
  show saved.disk.read path = .bytes content
  cases hwrite : machine.disk.write path content with
  | error cause =>
    simp only [world, write, hwrite, bind, Except.bind] at h
    cases h
  | ok disk =>
    simp only [world, write, hwrite, bind, Except.bind, pure, Except.pure] at h
    cases h
    exact Disk.read_of_write hwrite

namespace CommandLine

open Batch

variable {σ : Type} {world : World σ} {options : Options} {state saved : σ} {config : Config}
  {report : Report} {args : List Bytes}

/-! ## What is told -/

/-- Where the report file cannot be written, the progress is all that is shown of a run. -/
theorem respond_of_not_saves (hargs : Options.ofArgs args = .ok options)
    (hload : world.loaded options state = .ok config)
    (hreport : handedOver (world.ran options config state).2 = some report)
    (hsaves : ¬ Saves world options report (world.ran options config state).1.state) :
    (respond world args state).stdout = shown (world.ran options config state).1.trace ∧
      ∃ path cause, options.report = some path ∧ ∀ wanted,
        (respond world args state).remarks wanted =
          noted (Log.Filter.ofEnvironment options.verbose wanted) (world.trace options state) ++
            [errorLine (.unreported (.unwritable path cause))] := by
  obtain ⟨path, cause, hpath, hwrite⟩ := exists_of_not_saves hsaves
  rw [respond_of_unsaved hargs hload hreport hpath hwrite]
  refine ⟨?_, path, cause, hpath, fun wanted => ?_⟩
  · simp only [Response.stdout, Finished.stdout_eq, Option.map_none, Option.getD_none, List.append_nil,
      shown_trace hload]
  · simp only [Response.remarks, Finished.remarks_eq, Option.map_some, Option.toList_some]

/-- Where the report file is written or not asked for, the results are shown after the progress. -/
theorem stdout_of_saved (hargs : Options.ofArgs args = .ok options)
    (hload : world.loaded options state = .ok config)
    (hreport : handedOver (world.ran options config state).2 = some report)
    (hsaved : Saved world options report (world.ran options config state).1.state saved) :
    (respond world args state).stdout =
      shown (world.ran options config state).1.trace ++ Utf8.encode (reportText report) := by
  rw [respond_of_saved hargs hload hreport hsaved]
  simp only [Response.stdout, Finished.stdout_eq, Option.map_some, Option.getD_some,
    shown_trace hload]

/-- The results of a run that hands over a report come after its progress, and the failure of one that
was aborted is told, exactly if the report file can be written or is not asked for. Otherwise there is
nothing but the progress, and the report file is all that is told to have failed. -/
theorem respond_tells_iff (world : World σ) (state : σ) (hargs : Options.ofArgs args = .ok options)
    (hload : world.loaded options state = .ok config)
    (hreport : handedOver (world.ran options config state).2 = some report) :
    let ran := world.ran options config state
    let response := respond world args state
    let results :=
      s!"Processed {report.processed} file(s): {report.succeeded} succeeded, {report.failed} failed" ++
        "\n" ++ String.join ((report.outcomes.filter (·.status ≠ .succeeded)).map fun outcome =>
          "  FAILED " ++ outcome.source.display ++ ": " ++ outcome.status.describe ++ "\n")
    let told := fun message : String =>
      Remark.plain (Utf8.encode ("Error: " ++ message ++ "\n"))
    let logged := fun wanted =>
      noted (Log.Filter.ofEnvironment options.verbose wanted) (world.trace options state)
    ((response.stdout = shown ran.1.trace ++ Utf8.encode results ∧
        ∀ failure wanted, ran.2 = .error failure →
          response.remarks wanted = logged wanted ++ [told failure.message]) ↔
      Saves world options report ran.1.state) ∧
    (∀ failure, ran.2 = .error failure → ∃ source details, failure = .verifier source details report ∧
      failure.message = "Verifier failed on " ++ source.display ++ ": " ++ details) ∧
    (¬ Saves world options report ran.1.state →
      response.stdout = shown ran.1.trace ∧
      ∃ (path : Path) (cause : SystemError), options.report = some path ∧ ∀ wanted,
        response.remarks wanted = logged wanted ++
          [told ("Failed to write report: " ++ (path.display ++ ": " ++ cause.message))]) ∧
    ((∀ bytes, .stdout bytes ∈ ran.1.trace → bytes = []) →
      shown ran.1.trace = Utf8.encode (progressText ran.1.trace)) ∧
    ∀ listing, world.tree.listGroups options.root state = .ok listing →
      progressText ran.1.trace =
        String.join (((listing.kept.filterMap Group.ofPath?).take ran.1.report.groupsVisited).map
          fun group => group.path.display ++ ":\n") := by
  intro ran response results told logged
  have hresults : reportText report = results := reportText_eq report
  refine ⟨⟨?_, ?_⟩, ?_, respond_of_not_saves hargs hload hreport, shown_of_silent, fun _ hlist =>
    @progressText_execute σ (world.setting config) options.root state _ hlist⟩
  · intro htold
    by_contra hsaves
    -- progress alone is not progress and results
    have hstdout := (respond_of_not_saves hargs hload hreport hsaves).1.symm.trans htold.1
    rw [← hresults] at hstdout
    exact encode_reportText_ne_nil report (List.self_eq_append_right.mp hstdout)
  · intro hsaves
    obtain ⟨saved, hsaved⟩ := saves_iff.mp hsaves
    rw [← hresults]
    refine ⟨stdout_of_saved hargs hload hreport hsaved, fun failure wanted hfailure => ?_⟩
    have hresponse := respond_of_saved hargs hload hreport hsaved
    have hstop : stopOf (world.ran options config state).2 = some failure.takeReport.2 := by
      rw [show (world.ran options config state).2 = .error failure from hfailure, stopOf]
    show response.remarks wanted = logged wanted ++ [errorLine failure]
    simp only [response, hresponse, Response.remarks, Finished.remarks_eq, hstop, Option.map_some,
      Option.toList_some, errorLine_takeReport, logged]
  · intro failure hfailure
    rw [show (world.ran options config state).2 = .error failure from hfailure] at hreport
    obtain ⟨source, details, rfl⟩ := eq_verifier_of_handedOver hreport
    exact ⟨source, details, rfl, rfl⟩

/-- A group with a source that fails, and a stand-in for the verifier. -/
def sampleMachine : Machine where
  disk :=
    { nodes :=
        [ ([Utf8.encode "data"], .directory),
          ([Utf8.encode "alpha", Utf8.encode "data"], .directory),
          ([Utf8.encode "a.bpl", Utf8.encode "alpha", Utf8.encode "data"], .file {}),
          ([Utf8.encode "fail.bpl", Utf8.encode "alpha", Utf8.encode "data"], .file {}),
          ([Utf8.encode "boogie"], .file { program := some (.standIn
            [ { source := Utf8.encode "data/alpha/fail.bpl",
                answer := .exited 2 [] (Utf8.encode "assertion might not hold\n") } ]) }) ] }

/-- A command line for the sample, with more arguments at its end. -/
def sampleArgs (more : List String) : List Bytes :=
  (["data", "--verifier", "./boogie", "--output-root", "smt"] ++ more).map Utf8.encode

/-- What such a command line asks for. -/
def sampleOptions (onError : Option FailurePolicy) (report : String) (strict : Bool) : Options where
  root := Path.ofString "data"
  overrides :=
    { verifier := some (Path.ofString "./boogie"), outputRoot := some (Path.ofString "smt"), onError }
  report := some (Path.ofString report)
  strict := strict

/-- What is to be told of the sample after its progress. -/
def sampleResults : String :=
  "Processed 2 file(s): 1 succeeded, 1 failed\n" ++
    "  FAILED data/alpha/fail.bpl: exited with status 2 (assertion might not hold)\n"

/-- The failure of the source that fails in the sample. -/
def sampleFailure (report : Report) : Failure :=
  .verifier (Path.ofString "data/alpha/fail.bpl") "exited with status 2 (assertion might not hold)"
    report

/-- The line about that failure. -/
def sampleError : String :=
  "Error: Verifier failed on data/alpha/fail.bpl: exited with status 2 (assertion might not hold)\n"

/-- The report of a failure does not show in the line about it. -/
theorem errorLine_sampleFailure (report : Report) :
    errorLine (sampleFailure report) = .plain (Utf8.encode sampleError) := by
  show errorLine (sampleFailure {}) = _
  decide +kernel

/-- The report of a run that was aborted can be written, so its results are told, and its failure. -/
theorem respond_tells_aborted :
    let args := sampleArgs ["--on-error", "abort", "--report", "r.json"]
    let options := sampleOptions (some .abort) "r.json" false
    let config := options.overrides.apply {}
    let ran := Machine.world.ran options config sampleMachine
    let response := respond Machine.world args sampleMachine
    Options.ofArgs args = .ok options ∧ Machine.world.loaded options sampleMachine = .ok config ∧
    ran.2 = .error (sampleFailure ran.1.report) ∧
    response.stdout = Utf8.encode ("data/alpha:\n" ++ sampleResults) ∧
    response.remarks none =
      noted (Log.Filter.ofEnvironment false none) (Machine.world.trace options sampleMachine) ++
        [.plain (Utf8.encode sampleError)] := by
  intro args options config ran response
  have hargs : Options.ofArgs args = .ok options := by decide +kernel
  have hload : Machine.world.loaded options sampleMachine = .ok config := by decide +kernel
  have hrun : ran.2 = .error (sampleFailure ran.1.report) ∧
      Saves Machine.world options ran.1.report ran.1.state ∧
      shown ran.1.trace = Utf8.encode "data/alpha:\n" ∧ reportText ran.1.report = sampleResults := by
    -- merging does not evaluate in the kernel, inserting does
    simp only [ran, World.ran, World.setting, Machine.world, Machine.tree, SourceTree.within, diskTree,
      Disk.listGroups, Disk.listFiles, Disk.list, Disk.sortedNames, Disk.mergeSort_nameLe]
    decide +kernel
  obtain ⟨hfailure, hsaves, hshown, hresults⟩ := hrun
  have hreport : handedOver ran.2 = some ran.1.report := by
    rw [hfailure]
    rfl
  obtain ⟨hstdout, herror⟩ :=
    (respond_tells_iff Machine.world sampleMachine hargs hload hreport).1.mpr hsaves
  refine ⟨hargs, hload, hfailure, ?_, ?_⟩
  · rw [Utf8.encode_append, ← hshown, ← hresults, reportText_eq]
    exact hstdout
  · rw [← errorLine_sampleFailure ran.1.report]
    exact herror _ none hfailure

/-- The lines about the source and about a report file differ from their eighth character on. -/
theorem sampleError_ne_unreported (fault : ReportFault) :
    sampleError ≠ failureText (.unreported fault) := by
  intro htext
  have hsource : sampleError.toList[7]? = some 'V' := by decide +kernel
  have hreport : (failureText (.unreported fault)).toList[7]? = some 'F' := by
    have herror : "Error: ".toList = ['E', 'r', 'r', 'o', 'r', ':', ' '] := by decide +kernel
    have hfailed : "Failed to write report: ".toList = 'F' :: "ailed to write report: ".toList := by
      decide +kernel
    show ("Error: " ++ ("Failed to write report: " ++ fault.message) ++ "\n").toList[7]? = some 'F'
    simp only [String.toList_append, herror, hfailed, List.cons_append, List.nil_append,
      List.getElem?_cons_succ, List.getElem?_cons_zero]
  rw [htext, hreport] at hsource
  cases hsource

/-- Where the directory of the report file is missing, the results of a run that was aborted are not
told, nor is its failure. -/
theorem not_respond_tells_unwritable :
    let args := sampleArgs ["--on-error", "abort", "--report", "no/such/r.json"]
    let options := sampleOptions (some .abort) "no/such/r.json" false
    let config := options.overrides.apply {}
    let ran := Machine.world.ran options config sampleMachine
    let response := respond Machine.world args sampleMachine
    Options.ofArgs args = .ok options ∧ Machine.world.loaded options sampleMachine = .ok config ∧
    ran.2 = .error (sampleFailure ran.1.report) ∧
    progressText ran.1.trace = "data/alpha:\n" ∧ reportText ran.1.report = sampleResults ∧
    response.stdout = Utf8.encode "data/alpha:\n" ∧
    response.stdout ≠ Utf8.encode ("data/alpha:\n" ++ sampleResults) ∧
    .plain (Utf8.encode sampleError) ∉ response.remarks none := by
  intro args options config ran response
  have hargs : Options.ofArgs args = .ok options := by decide +kernel
  have hload : Machine.world.loaded options sampleMachine = .ok config := by decide +kernel
  have hrun : ran.2 = .error (sampleFailure ran.1.report) ∧
      ¬ Saves Machine.world options ran.1.report ran.1.state ∧
      .stderr (Utf8.encode sampleError) ∉ Machine.world.trace options sampleMachine ∧
      shown ran.1.trace = Utf8.encode "data/alpha:\n" ∧
      progressText ran.1.trace = "data/alpha:\n" ∧ reportText ran.1.report = sampleResults := by
    rw [World.trace_of_loaded hload]
    simp only [ran, World.ran, World.setting, Machine.world, Machine.tree, SourceTree.within, diskTree,
      Disk.listGroups, Disk.listFiles, Disk.list, Disk.sortedNames, Disk.mergeSort_nameLe]
    decide +kernel
  obtain ⟨hfailure, hsaves, hsilent, hshown, hprogress, hresults⟩ := hrun
  have hreport : handedOver ran.2 = some ran.1.report := by
    rw [hfailure]
    rfl
  obtain ⟨hstdout, path, cause, hpath, hremarks⟩ := respond_of_not_saves hargs hload hreport hsaves
  have hbare : response.stdout = Utf8.encode "data/alpha:\n" := hstdout.trans hshown
  refine ⟨hargs, hload, hfailure, hprogress, hresults, hbare, ?_, ?_⟩
  · rw [hbare]
    decide +kernel
  · intro hmem
    rw [show response.remarks none = _ from hremarks none] at hmem
    rcases List.mem_append.mp hmem with hmem | hmem
    · exact hsilent (plain_mem_noted_iff.mp hmem)
    · have hline := Remark.plain.inj (List.mem_singleton.mp hmem)
      exact sampleError_ne_unreported _ (Utf8.encode_injective hline)

/-! ## The exit code -/

/-- The configuration loads, the run returns a report, and the report is written if that is asked
for. -/
structure Completes (world : World σ) (options : Options) (state : σ) (config : Config)
    (report : Report) : Prop where
  loads : world.loaded options state = .ok config
  returns : (world.ran options config state).2 = .ok report
  saves : Saves world options report (world.ran options config state).1.state

theorem Completes.config_eq {config' : Config} (h : Completes world options state config' report)
    (hload : world.loaded options state = .ok config) : config' = config :=
  Except.ok.inj (h.loads.symm.trans hload)

theorem Completes.unique {config' : Config} {report' : Report}
    (h : Completes world options state config report)
    (h' : Completes world options state config' report') : report' = report := by
  obtain rfl := h'.config_eq h.loads
  exact Except.ok.inj (h'.returns.symm.trans h.returns)

/-- What a run returns has a failure among its totals where it has one among its outcomes. -/
theorem Completes.hasFailures_iff (h : Completes world options state config report) :
    report.hasFailures = true ↔ ∃ outcome ∈ report.outcomes, outcome.status ≠ .succeeded := by
  have hconsistent : (world.ran options config state).1.report.Consistent :=
    consistent_execute _ options.root state
  rw [World.ran, report_execute h.returns] at hconsistent
  exact hconsistent.hasFailures_iff

/-- The failures that come up while a command line is run. -/
inductive Occurs (world : World σ) (options : Options) (state : σ) : Failure → Prop
  | load {failure : Failure} (h : world.loaded options state = .error failure) :
    Occurs world options state failure
  | run {config : Config} {failure : Failure} (hload : world.loaded options state = .ok config)
    (h : (world.ran options config state).2 = .error failure) : Occurs world options state failure
  | save {config : Config} {report : Report} {path : Path} {cause : SystemError}
    (hload : world.loaded options state = .ok config)
    (hreport : handedOver (world.ran options config state).2 = some report)
    (hpath : options.report = some path)
    (h : world.write path (Utf8.encode report.fileText) (world.ran options config state).1.state =
      .error cause) :
    Occurs world options state (.unreported (.unwritable path cause))

/-- Without a configuration, no other failure comes up than the one about it. -/
theorem Occurs.eq_of_unloaded {failure failure' : Failure} (h : Occurs world options state failure')
    (hload : world.loaded options state = .error failure) : failure' = failure := by
  cases h with
  | load h => exact Except.error.inj (h.symm.trans hload)
  | run hloaded => cases hloaded.symm.trans hload
  | save hloaded => cases hloaded.symm.trans hload

/-- A batch completes and is told without a failure, or it does not complete and tells of one that came
up. -/
theorem Ending.failure_cases {finished : Finished σ} (h : Ending world options state finished) :
    (∃ config report, Completes world options state config report ∧ finished.failure = none ∧
      finished.report = some report) ∨
    ((¬ ∃ config report, Completes world options state config report) ∧
      ∃ failure, Occurs world options state failure ∧
        finished.failure.map errorLine = some (errorLine failure)) := by
  cases h with
  | @unloaded failure hload =>
    refine Or.inr ⟨?_, failure, .load hload, rfl⟩
    rintro ⟨config, report, hcompletes⟩
    have hboth := hload.symm.trans hcompletes.loads
    cases hboth
  | @failed config failure hload hrun hnone =>
    refine Or.inr ⟨?_, failure, .run hload hrun, rfl⟩
    rintro ⟨config', report, hcompletes⟩
    obtain rfl := hcompletes.config_eq hload
    have hboth := hrun.symm.trans hcompletes.returns
    cases hboth
  | @unsaved config report path cause hload hreport hpath hwrite =>
    refine Or.inr ⟨?_, _, .save hload hreport hpath hwrite, rfl⟩
    rintro ⟨config', report', hcompletes⟩
    obtain rfl := hcompletes.config_eq hload
    -- what is returned is what is handed over, and could not be written
    rw [hcompletes.returns] at hreport
    cases hreport
    obtain ⟨saved, hsaved⟩ := hcompletes.saves path hpath
    have hboth := hwrite.symm.trans hsaved
    cases hboth
  | @told config report saved hload hreport hsaved =>
    cases hrun : (world.ran options config state).2 with
    | ok whole =>
      rw [hrun] at hreport
      cases hreport
      exact Or.inl ⟨config, report, ⟨hload, hrun, saves_iff.mpr ⟨saved, hsaved⟩⟩, rfl, rfl⟩
    | error failure =>
      refine Or.inr ⟨?_, failure, .run hload hrun, ?_⟩
      · rintro ⟨config', report', hcompletes⟩
        obtain rfl := hcompletes.config_eq hload
        have hboth := hrun.symm.trans hcompletes.returns
        cases hboth
      · show some (errorLine failure.takeReport.2) = _
        rw [errorLine_takeReport]

theorem exitCode_eq_zero_iff {finished : Finished σ} :
    (Response.ran options finished).exitCode = 0 ↔
      finished.failure = none ∧
        ¬ (options.strict = true ∧ finished.report.any Report.hasFailures = true) := by
  rw [Response.exitCode]
  cases finished.failure with
  | none => simp
  | some failure => simp

theorem exitCode_of_ne_zero {finished : Finished σ}
    (h : (Response.ran options finished).exitCode ≠ 0) :
    (Response.ran options finished).exitCode = 1 := by
  rw [Response.exitCode] at h ⊢
  split_ifs at h ⊢
  · rfl
  · exact absurd rfl h

theorem Ending.exitCode_eq_zero_iff {finished : Finished σ} (h : Ending world options state finished) :
    (Response.ran options finished).exitCode = 0 ↔
      ∃ config report, Completes world options state config report ∧
        ¬ (options.strict = true ∧ ∃ outcome ∈ report.outcomes, outcome.status ≠ .succeeded) := by
  rw [CommandLine.exitCode_eq_zero_iff]
  rcases h.failure_cases with
    ⟨config, report, hcompletes, hfailure, hreport⟩ | ⟨hnot, failure, -, hfailure⟩
  · rw [hfailure, hreport, Option.any_some, hcompletes.hasFailures_iff]
    constructor
    · rintro ⟨-, hstrict⟩
      exact ⟨config, report, hcompletes, hstrict⟩
    · rintro ⟨config', report', hcompletes', hstrict⟩
      rw [hcompletes.unique hcompletes'] at hstrict
      exact ⟨rfl, hstrict⟩
  · constructor
    · rintro ⟨hnone, -⟩
      rw [hnone] at hfailure
      cases hfailure
    · rintro ⟨config, report, hcompletes, -⟩
      exact absurd ⟨config, report, hcompletes⟩ hnot

/-- A command line exits with 0 exactly if its batch completes and there is no failure that it is strict
about, and else with 1. One that does not complete, and no other, tells of a failure that came up. A
report file that was asked for and written is that of the report that is told, and reads as it. -/
theorem respond_exit (world : World σ) (state : σ) (wanted : Option Bytes)
    (hargs : Options.ofArgs args = .ok options) :
    let response := respond world args state
    let logged := noted (Log.Filter.ofEnvironment options.verbose wanted) (world.trace options state)
    let completes := ∃ config report, Completes world options state config report
    let results := fun report : Report =>
      s!"Processed {report.processed} file(s): {report.succeeded} succeeded, {report.failed} failed" ++
        "\n" ++ String.join ((report.outcomes.filter (·.status ≠ .succeeded)).map fun outcome =>
          "  FAILED " ++ outcome.source.display ++ ": " ++ outcome.status.describe ++ "\n")
    (response.exitCode = 0 ↔ ∃ config report, Completes world options state config report ∧
      ¬ (options.strict = true ∧ ∃ outcome ∈ report.outcomes, outcome.status ≠ .succeeded)) ∧
    (response.exitCode ≠ 0 → response.exitCode = 1) ∧
    (completes → response.remarks wanted = logged) ∧
    (¬ completes → ∃ failure, Occurs world options state failure ∧ failure.Says failure.message ∧
      response.remarks wanted =
        logged ++ [.plain (Utf8.encode ("Error: " ++ failure.message ++ "\n"))]) ∧
    (∀ config report path saved, world.loaded options state = .ok config →
      handedOver (world.ran options config state).2 = some report → options.report = some path →
      let content := Utf8.encode report.fileText
      world.write path content (world.ran options config state).1.state = .ok saved →
      response.state state = saved ∧
        response.stdout =
          shown (world.ran options config state).1.trace ++ Utf8.encode (results report) ∧
        Report.read? content = some report.readable ∧
        (world.ReadsBack → world.read (response.state state) path = .bytes content)) := by
  intro response logged completes results
  have hresponse : response = .ran options (runBatch world options state) := respond_of_args hargs
  have hending : Ending world options state _ := runBatch_ending world options state
  have hremarks : response.remarks wanted =
      logged ++ ((runBatch world options state).failure.map errorLine).toList := by
    rw [hresponse]
    show (runBatch world options state).remarks _ = _
    rw [Finished.remarks_eq, hending.trace_eq]
  refine ⟨?_, ?_, ?_, ?_, ?_⟩
  · rw [hresponse]
    exact hending.exitCode_eq_zero_iff
  · rw [hresponse]
    exact exitCode_of_ne_zero
  · intro hclean
    rcases hending.failure_cases with
      ⟨config, report, -, hfailure, -⟩ | ⟨hnot, -⟩
    · rw [hremarks, hfailure]
      exact List.append_nil _
    · exact absurd hclean hnot
  · intro hnot
    rcases hending.failure_cases with
      ⟨config, report, hcompletes, -⟩ | ⟨-, failure, hoccurs, hfailure⟩
    · exact absurd ⟨config, report, hcompletes⟩ hnot
    · refine ⟨failure, hoccurs, failure.says_message, ?_⟩
      rw [hremarks, hfailure]
      rfl
  · intro config report path saved hload hreport hpath content hwrite
    have hsaved : Saved world options report (world.ran options config state).1.state saved := by
      rw [Saved, hpath]
      exact hwrite
    have hstate : response.state state = saved := by
      show (respond world args state).state state = saved
      rw [respond_of_saved hargs hload hreport hsaved]
      rfl
    refine ⟨hstate, ?_, Report.read?_fileText report, fun hreads => ?_⟩
    · rw [show results report = reportText report from (reportText_eq report).symm]
      exact stdout_of_saved hargs hload hreport hsaved
    · rw [hstate]
      exact hreads hwrite

/-- A source that fails makes a strict command line exit with 1, though it completes and writes its
report. One whose configuration file is missing exits with 1 as well, and tells of that. -/
theorem respond_exit_strict :
    let args := sampleArgs ["--report", "r.json", "--strict"]
    let options := sampleOptions none "r.json" true
    let config := options.overrides.apply {}
    let ran := Machine.world.ran options config sampleMachine
    let response := respond Machine.world args sampleMachine
    let missing := respond Machine.world (sampleArgs ["--config", "none.toml"]) sampleMachine
    Options.ofArgs args = .ok options ∧ Machine.world.loaded options sampleMachine = .ok config ∧
    ran.2 = .ok ran.1.report ∧ response.exitCode = 1 ∧
    response.remarks none =
      noted (Log.Filter.ofEnvironment false none) (Machine.world.trace options sampleMachine) ∧
    response.stdout = Utf8.encode ("data/alpha:\n" ++ sampleResults) ∧
    Report.read? (Utf8.encode ran.1.report.fileText) = some ran.1.report ∧
    Machine.world.read (response.state sampleMachine) (Path.ofString "r.json") =
      .bytes (Utf8.encode ran.1.report.fileText) ∧
    missing.exitCode = 1 ∧
    missing.remarks none = [.plain (Utf8.encode "Error: Config file not found: none.toml\n")] := by
  intro args options config ran response missing
  have hargs : Options.ofArgs args = .ok options := by decide +kernel
  have hload : Machine.world.loaded options sampleMachine = .ok config := by decide +kernel
  have hrun : ran.2 = .ok ran.1.report ∧ Saves Machine.world options ran.1.report ran.1.state ∧
      (∃ outcome ∈ ran.1.report.outcomes, outcome.status ≠ .succeeded) ∧
      shown ran.1.trace = Utf8.encode "data/alpha:\n" ∧ reportText ran.1.report = sampleResults ∧
      ran.1.report.readable = ran.1.report := by
    simp only [ran, World.ran, World.setting, Machine.world, Machine.tree, SourceTree.within, diskTree,
      Disk.listGroups, Disk.listFiles, Disk.list, Disk.sortedNames, Disk.mergeSort_nameLe]
    decide +kernel
  obtain ⟨hreturns, hsaves, hfails, hshown, hresults, hreadable⟩ := hrun
  have hcompletes : Completes Machine.world options sampleMachine config ran.1.report :=
    ⟨hload, hreturns, hsaves⟩
  obtain ⟨hzero, hone, hclean, -, hfile⟩ := respond_exit Machine.world sampleMachine none hargs
  have hexit : response.exitCode = 1 := by
    refine hone fun hcode => ?_
    obtain ⟨config', report, hcompletes', hstrict⟩ := hzero.mp hcode
    rw [hcompletes.unique hcompletes'] at hstrict
    exact hstrict ⟨rfl, hfails⟩
  obtain ⟨saved, hwrite⟩ := hsaves _ rfl
  have hreport : handedOver ran.2 = some ran.1.report := by
    rw [hreturns]
    rfl
  obtain ⟨-, hstdout, hcontent, hread⟩ := hfile config _ _ saved hload hreport rfl hwrite
  refine ⟨hargs, hload, hreturns, hexit, hclean ⟨config, _, hcompletes⟩, ?results,
    hcontent.trans (congrArg some hreadable), hread Machine.readsBack_world, ?missing⟩
  case results =>
    rw [Utf8.encode_append, ← hshown, ← hresults, reportText_eq]
    exact hstdout
  case missing =>
    let unread : Options := { options with
      config := some (Path.ofString "none.toml"), report := none, strict := false }
    have hargs : Options.ofArgs (sampleArgs ["--config", "none.toml"]) = .ok unread := by
      decide +kernel
    have hload : Machine.world.loaded unread sampleMachine =
        .error (.configMissing (Path.ofString "none.toml")) := by decide +kernel
    obtain ⟨hzero, hone, -, hfails, -⟩ := respond_exit Machine.world sampleMachine none hargs
    have hnot : ¬ ∃ config report, Completes Machine.world unread sampleMachine config report := by
      rintro ⟨config, report, hcompletes⟩
      cases hload.symm.trans hcompletes.loads
    obtain ⟨failure, hoccurs, -, htold⟩ := hfails hnot
    refine ⟨hone fun hcode => ?_, ?_⟩
    · obtain ⟨config, report, hcompletes, -⟩ := hzero.mp hcode
      exact hnot ⟨config, report, hcompletes⟩
    · rw [hoccurs.eq_of_unloaded hload, World.trace, hload] at htold
      rw [htold]
      decide +kernel

end CommandLine

end BatchVerify
