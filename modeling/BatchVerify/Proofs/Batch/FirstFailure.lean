import BatchVerify.Proofs.Batch.Steps

/-!
# The first failure of a run

The two policies part at the first source that fails (`Batch.FirstFailure`). Up to there they take
the same steps; a run that aborts ends there, and a run that keeps going takes further steps from
there on (`Batch.visitGroups_cut`). This holds for any tree and any verifier.
-/

namespace BatchVerify

/-- A configuration with a given policy in place of its own. -/
def Config.under (config : Config) (policy : FailurePolicy) : Config :=
  { config with run := { config.run with onError := policy } }

/-- A setting with a given policy in place of its own. -/
def Setting.under {σ : Type} (setting : Setting σ) (policy : FailurePolicy) : Setting σ :=
  { setting with config := setting.config.under policy }

namespace Batch

variable {σ : Type} {setting : Setting σ}

/-! ## What the policy does not touch -/

@[simp] theorem onError_under (policy : FailurePolicy) :
    (setting.under policy).config.run.onError = policy := rfl

@[simp] theorem verifySource_under (policy : FailurePolicy) :
    verifySource (setting.under policy) = verifySource setting := rfl

theorem Reaches.of_under {policy : FailurePolicy} {run later : Run σ}
    (h : Reaches (setting.under policy) run later) : Reaches setting run later := by
  -- no step looks at the policy
  refine Relation.ReflTransGen.mono ?_ _ _ h
  intro stage next hstep
  cases hstep with
  | announce group => exact .announce group stage
  | openGroup group => exact .openGroup group stage
  | verify group source => exact .verify group source stage

/-! ## Sources under a policy -/

/-- After a source that succeeds, both policies go on. -/
theorem verifySources_cons_of_success (policy : FailurePolicy) {group : Group} {source : Source}
    {run : Run σ} (h : (verifySource setting group source run).2.isSuccess = true)
    (sources : List Source) :
    verifySources (setting.under policy) group (source :: sources) run =
      verifySources (setting.under policy) group sources
        (verifySource setting group source run).1 := by
  simp [verifySources, h]

theorem verifySources_keepGoing_cons (group : Group) (source : Source) (sources : List Source)
    (run : Run σ) :
    verifySources (setting.under .keepGoing) group (source :: sources) run =
      verifySources (setting.under .keepGoing) group sources
        (verifySource setting group source run).1 := by
  simp [verifySources]

theorem verifySources_abort_cons {group : Group} {source : Source} {run : Run σ}
    (h : (verifySource setting group source run).2.isSuccess = false) (sources : List Source) :
    verifySources (setting.under .abort) group (source :: sources) run =
      ((verifySource setting group source run).1,
        some (.verifier source.path (verifySource setting group source run).2.describe
          (verifySource setting group source run).1.report)) := by
  simp [verifySources, h]

/-- A run that keeps going is not stopped by a source. -/
theorem verifySources_keepGoing (setting : Setting σ) (group : Group) (sources : List Source)
    (run : Run σ) :
    (verifySources (setting.under .keepGoing) group sources run).2 = none := by
  induction sources generalizing run with
  | nil => rfl
  | cons source sources ih =>
    rw [verifySources_keepGoing_cons]
    exact ih _

/-! ## The first failure -/

/-- How a run comes to its first failure: after steps without one, a source fails. -/
structure FirstFailure (setting : Setting σ) (run : Run σ) where
  /-- The stage right before. -/
  quiet : Run σ
  group : Group
  source : Source
  reaches : Reaches setting run quiet
  failures_quiet : quiet.report.failures = run.report.failures
  failed : (verifySource setting group source quiet).2.isSuccess = false

namespace FirstFailure

variable {run later : Run σ}

/-- How the source ended. -/
def status (first : FirstFailure setting run) : Status :=
  (verifySource setting first.group first.source first.quiet).2

/-- The stage right after. -/
def stopped (first : FirstFailure setting run) : Run σ :=
  (verifySource setting first.group first.source first.quiet).1

/-- What an aborted run ends with. -/
def failure (first : FirstFailure setting run) : Failure :=
  .verifier first.source.path first.status.describe first.stopped.report

/-- The outcome that is recorded. -/
def outcome (first : FirstFailure setting run) : Outcome :=
  outcomeOf setting first.group first.source first.status

theorem outcomes_stopped (first : FirstFailure setting run) :
    first.stopped.report.outcomes = first.quiet.report.outcomes ++ [first.outcome] := rfl

theorem failures_stopped (first : FirstFailure setting run) :
    first.stopped.report.failures = run.report.failures ++ [first.outcome] := by
  have hfailed : first.outcome.status.isSuccess = false := first.failed
  rw [stopped, report_verifySource, Report.failures_record, first.failures_quiet]
  show _ ++ (if first.outcome.status.isSuccess = true then _ else _) = _
  rw [hfailed]
  rfl

theorem reaches_stopped (first : FirstFailure setting run) :
    Reaches setting run first.stopped :=
  first.reaches.tail (.verify first.group first.source first.quiet)

/-- The first failure after steps without one is the first of all. -/
def since (first : FirstFailure setting later) (hreaches : Reaches setting run later)
    (hquiet : later.report.failures = run.report.failures) : FirstFailure setting run where
  quiet := first.quiet
  group := first.group
  source := first.source
  reaches := hreaches.trans first.reaches
  failures_quiet := first.failures_quiet.trans hquiet
  failed := first.failed

/-- All outcomes before the first failure are successes. -/
theorem isSuccess_of_mem_quiet {state : σ} (first : FirstFailure setting { state })
    {outcome : Outcome} (h : outcome ∈ first.quiet.report.outcomes) :
    outcome.status.isSuccess = true := by
  have hnone : first.quiet.report.failures = [] := first.failures_quiet
  have hsuccess := List.filter_eq_nil_iff.mp hnone outcome h
  simpa using hsuccess

/-- Whatever a run does after its first failure, that one is the first in its report. -/
theorem failures_of_reaches {state : σ} (first : FirstFailure setting { state })
    (h : Reaches setting first.stopped later) :
    ∃ rest, later.report.failures = first.outcome :: rest := by
  obtain ⟨rest, hrest⟩ := h.outcomes_extend.filter fun outcome => !outcome.status.isSuccess
  refine ⟨rest, ?_⟩
  rw [Report.failures, ← hrest]
  show first.stopped.report.failures ++ rest = _
  rw [first.failures_stopped]
  rfl

end FirstFailure

/-- How visits of groups that abort compare to visits of the same groups that keep going: they are
the same if nothing fails, and else end at the first failure, with the groups counted up to it. -/
inductive Cut (setting : Setting σ) (groups : List Group) (run : Run σ) :
    Run σ × Option Failure → Run σ × Option Failure → Prop
  | same {result : Run σ × Option Failure}
    (hquiet : result.1.report.failures = run.report.failures) : Cut setting groups run result result
  | short {kept : Run σ × Option Failure} (before after : List Group)
    (first : FirstFailure setting run) (hgroups : groups = before ++ first.group :: after)
    (hcount : first.stopped.report.groupsVisited = run.report.groupsVisited + before.length + 1)
    (hreaches : Reaches setting first.stopped kept.1) :
    Cut setting groups run (first.stopped, some first.failure) kept

theorem verifySources_cut (setting : Setting σ) (group : Group) (sources : List Source)
    (run : Run σ) :
    (verifySources (setting.under .abort) group sources run =
        verifySources (setting.under .keepGoing) group sources run ∧
      (verifySources (setting.under .keepGoing) group sources run).1.report.failures =
        run.report.failures) ∨
    ∃ first : FirstFailure setting run, first.group = group ∧
      verifySources (setting.under .abort) group sources run =
        (first.stopped, some first.failure) ∧
      Reaches setting first.stopped
        (verifySources (setting.under .keepGoing) group sources run).1 := by
  induction sources generalizing run with
  | nil => exact Or.inl ⟨rfl, rfl⟩
  | cons source sources ih =>
    rw [verifySources_keepGoing_cons]
    cases hstatus : (verifySource setting group source run).2.isSuccess with
    | false =>
      -- this source is the first to fail
      refine Or.inr ⟨⟨run, group, source, .refl, rfl, hstatus⟩, rfl, ?_, ?_⟩
      · exact verifySources_abort_cons hstatus sources
      · exact (reaches_verifySources _ group sources _).of_under
    | true =>
      -- this source succeeds, and the first failure of the others is the first of all
      have hfirst : Reaches setting run (verifySource setting group source run).1 :=
        .single (.verify group source run)
      have hquiet : (verifySource setting group source run).1.report.failures =
          run.report.failures := by
        rw [report_verifySource, Report.failures_record]
        simp [outcomeOf, hstatus]
      rw [verifySources_cons_of_success .abort hstatus]
      rcases ih (verifySource setting group source run).1 with
        ⟨heq, hlater⟩ | ⟨first, hgroup, habort, hreaches⟩
      · exact Or.inl ⟨heq, hlater.trans hquiet⟩
      · exact Or.inr ⟨first.since hfirst hquiet, hgroup, habort, hreaches⟩

theorem visitGroup_cut (setting : Setting σ) (group : Group) (run : Run σ) :
    Cut setting [group] run (visitGroup (setting.under .abort) group run)
      (visitGroup (setting.under .keepGoing) group run) := by
  have hreaches : Reaches setting run (announce setting group run).1 :=
    .single (.announce group run)
  rcases hannounce : announce setting group run with ⟨announced, _ | failure⟩
  · have hreport := report_announce_of_none hannounce
    have hopens : Reaches setting announced (openGroup setting group announced).1 :=
      .single (.openGroup group announced)
    have hkept := report_openGroup setting group announced
    rw [hannounce] at hreaches
    -- up to here there is one run; the policies can part at the sources only
    rcases hopen : openGroup setting group announced with ⟨opened, failure | sources⟩ <;>
      rw [hopen] at hopens hkept <;>
      have hopened : opened.report = run.report.recordGroup := hkept.trans hreport
    · rw [visitGroup_of_unopened (setting.under .abort) hannounce hopen,
        visitGroup_of_unopened (setting.under .keepGoing) hannounce hopen]
      exact .same (by rw [hopened]; rfl)
    · have hquiet : opened.report.failures = run.report.failures := by
        rw [hopened]
        rfl
      rw [visitGroup_of_opened (setting.under .abort) hannounce hopen,
        visitGroup_of_opened (setting.under .keepGoing) hannounce hopen]
      rcases verifySources_cut setting group sources opened with
        ⟨heq, hlater⟩ | ⟨first, hgroup, habort, hlater⟩
      · rw [heq]
        exact .same (hlater.trans hquiet)
      · have hcount := groupsVisited_verifySources (setting.under .abort) group sources opened
        rw [habort, hopened] at hcount
        rw [habort]
        refine .short [] [] (first.since (hreaches.trans hopens) hquiet) ?_ hcount hlater
        rw [← hgroup]
        rfl
  · rw [visitGroup_of_untold (setting.under .abort) hannounce,
      visitGroup_of_untold (setting.under .keepGoing) hannounce]
    refine .same ?_
    rcases announce_cases setting group run with ⟨cause, _, heq⟩ | ⟨_, heq⟩ <;>
      rw [heq] at hannounce <;> cases hannounce
    rfl

/-- Visits that abort are visits that keep going, cut at the first failure. -/
theorem visitGroups_cut (setting : Setting σ) (groups : List Group) (run : Run σ) :
    Cut setting groups run (visitGroups (setting.under .abort) groups run)
      (visitGroups (setting.under .keepGoing) groups run) := by
  induction groups generalizing run with
  | nil => exact .same rfl
  | cons group groups ih =>
    have hgroup := visitGroup_cut setting group run
    rcases habort : visitGroup (setting.under .abort) group run with ⟨stopped, end₁⟩
    rcases hkeep : visitGroup (setting.under .keepGoing) group run with ⟨visited, end₂⟩
    rw [habort, hkeep] at hgroup
    cases hgroup with
    | same hquiet =>
      cases end₁ with
      | some failure =>
        rw [visitGroups_cons_of_some habort, visitGroups_cons_of_some hkeep]
        exact .same hquiet
      | none =>
        have hreaches := reaches_visitGroup (setting.under .keepGoing) group run
        have hcount := groupsVisited_visitGroup hkeep
        have hrest := ih stopped
        rw [hkeep] at hreaches
        rw [visitGroups_cons_of_none habort, visitGroups_cons_of_none hkeep]
        generalize visitGroups (setting.under .abort) groups stopped = aborted at hrest ⊢
        generalize visitGroups (setting.under .keepGoing) groups stopped = kept at hrest ⊢
        cases hrest with
        | same hlater => exact .same (hlater.trans hquiet)
        | short before after first hgroups hcounts hlater =>
          refine .short (group :: before) after (first.since hreaches.of_under hquiet) ?_ ?_ hlater
          · rw [hgroups]
            rfl
          · rw [List.length_cons]
            show first.stopped.report.groupsVisited = _
            omega
    | short before after first hgroups hcount hlater =>
      rw [visitGroups_cons_of_some habort]
      refine .short before (after ++ groups) first ?_ hcount ?_
      · rw [← List.singleton_append, hgroups, List.append_assoc]
        rfl
      · -- what the run that keeps going still does comes after the failure
        cases end₂ with
        | some failure => rwa [visitGroups_cons_of_some hkeep]
        | none =>
          rw [visitGroups_cons_of_none hkeep]
          exact hlater.trans (reaches_visitGroups _ groups visited).of_under

end Batch

end BatchVerify
