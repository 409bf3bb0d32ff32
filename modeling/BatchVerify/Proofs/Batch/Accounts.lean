import BatchVerify.Proofs.Batch.Course
import BatchVerify.Proofs.Batch.PartialReport
import Mathlib.Data.List.Dedup

/-!
# Reports that leave a run

A run hands over a report at its end, or with the failure that stopped it; a failure whose report was
taken hands over an empty one from then on. Every such report accounts for what was recorded in it, and
counts each group that it names (`Batch.report_accounted`).
-/

namespace BatchVerify

/-- The report that a failure hands over when it was asked for one so many times before. -/
def Failure.reportAfter : (times : Nat) → Failure → Option Report
  | 0, failure => failure.takeReport.1
  | times + 1, failure => failure.takeReport.2.reportAfter times

/-- What was taken once is empty when it is taken again. -/
theorem Failure.reportAfter_cases {failure : Failure} {times : Nat} {report : Report}
    (h : failure.reportAfter times = some report) :
    (times = 0 ∧ failure.takeReport.1 = some report) ∨ report = {} := by
  induction times generalizing failure with
  | zero => exact Or.inl ⟨rfl, h⟩
  | succ times ih =>
    right
    rcases ih h with ⟨-, htaken⟩ | hempty
    · cases failure <;> cases htaken
      rfl
    · exact hempty

/-- A failure that carries no report hands over none, however often it is asked. -/
theorem Failure.exists_verifier_of_reportAfter {failure : Failure} {times : Nat} {report : Report}
    (h : failure.reportAfter times = some report) :
    ∃ source details first, failure = .verifier source details first := by
  induction times generalizing failure with
  | zero => cases failure <;> first | exact ⟨_, _, _, rfl⟩ | cases h
  | succ times ih =>
    obtain ⟨source, details, first, hfailure⟩ := ih h
    cases failure <;> first | exact ⟨_, _, _, rfl⟩ | cases hfailure

namespace Batch

variable {σ : Type} {setting : Setting σ} {root : Path} {state : σ}

/-- The reports that leave a run: the one that it returns, or those taken from its failure. -/
def Leaves (result : Except Failure Report) (report : Report) : Prop :=
  match result with
  | .ok returned => report = returned
  | .error failure => ∃ times, failure.reportAfter times = some report

/-- What is to be said of a report that leaves a run. -/
structure Accounted (run : Run σ) (report : Report) : Prop where
  recorded : ∃ recordings, report.Accounts recordings
  /-- It is the report of the run, which counts the groups that were told, or what is left after
  that was taken. -/
  told : report = run.report ∧ report.groupsVisited = (progressLines run.trace).length ∨ report = {}
  named : (report.outcomes.map Outcome.group).dedup.length ≤ report.groupsVisited

theorem exists_recordings_step {run next : Run σ} (h : Step setting run next)
    (hrun : ∃ recordings, run.report = Report.ofRecordings recordings) :
    ∃ recordings, next.report = Report.ofRecordings recordings := by
  obtain ⟨recordings, hreport⟩ := hrun
  cases h with
  | announce group =>
    rcases announce_cases setting group run with ⟨cause, _, heq⟩ | ⟨_, heq⟩ <;> rw [heq]
    · exact ⟨recordings, hreport⟩
    · exact ⟨recordings ++ [.group], by rw [Report.ofRecordings_concat, hreport]; rfl⟩
  | openGroup group => exact ⟨recordings, (report_openGroup setting group run).trans hreport⟩
  | verify group source =>
    refine ⟨recordings ++
      [.file (outcomeOf setting group source (verifySource setting group source run).2)], ?_⟩
    rw [Report.ofRecordings_concat, report_verifySource, hreport]
    rfl

/-- The report of a run is made by recording. -/
theorem exists_recordings_execute (setting : Setting σ) (root : Path) (state : σ) :
    ∃ recordings, (execute setting root state).1.report = Report.ofRecordings recordings :=
  execute_keeps (P := fun run => ∃ recordings, run.report = Report.ofRecordings recordings)
    exists_recordings_step (fun _ hrun => hrun) ⟨[], rfl⟩

/-- Every group that is named in an outcome was visited, and every visit was told and counted. -/
theorem counted_execute (setting : Setting σ) (root : Path) (state : σ) :
    let run := (execute setting root state).1
    (run.report.outcomes.map Outcome.group).dedup.length ≤ run.report.groupsVisited ∧
      run.report.groupsVisited = (progressLines run.trace).length := by
  obtain ⟨visits, hcourse⟩ := exists_course setting root state
  intro run
  have hvisited : (run.report.outcomes.map Outcome.group).dedup ⊆
      visits.map fun visit => visit.group.name := by
    intro name hname
    rw [List.mem_dedup, hcourse.outcomes, List.map_flatMap, List.mem_flatMap] at hname
    obtain ⟨visit, hvisit, hnamed⟩ := hname
    refine List.mem_map.mpr ⟨visit, hvisit, ?_⟩
    unfold Visit.outcomes at hnamed
    rw [List.map_map, List.mem_map] at hnamed
    obtain ⟨answer, -, rfl⟩ := hnamed
    rfl
  constructor
  · have hle := (List.subperm_of_subset (List.nodup_dedup _) hvisited).length_le
    rwa [List.length_map, ← hcourse.counted] at hle
  · rw [hcourse.counted, hcourse.told, List.length_map]

theorem accounted_execute (setting : Setting σ) (root : Path) (state : σ) :
    Accounted (execute setting root state).1 (execute setting root state).1.report := by
  obtain ⟨recordings, hreport⟩ := exists_recordings_execute setting root state
  obtain ⟨hnamed, htold⟩ := counted_execute setting root state
  refine ⟨⟨recordings, ?_⟩, Or.inl ⟨rfl, htold⟩, hnamed⟩
  rw [hreport]
  exact Report.accounts_ofRecordings recordings

/-- What is left after a report was taken accounts for nothing. -/
theorem accounted_empty (run : Run σ) : Accounted run {} :=
  ⟨⟨[], Report.accounts_ofRecordings []⟩, Or.inr rfl, Nat.le_refl 0⟩

/-- A report that is made by recording accounts for what was recorded, and so does every report that
leaves a run. The one exception would be a tree of another kind, which ended its operations with a
report of its own. -/
theorem report_accounted :
    (∀ recordings, (Report.ofRecordings recordings).Accounts recordings) ∧
    ∀ {σ : Type} (setting : Setting σ) (root : Path) (state : σ) (report : Report),
      Leaves (execute setting root state).2 report →
      Accounted (execute setting root state).1 report ∨
        ¬ setting.tree.Known ∧
          ∃ failure, (execute setting root state).2 = .error failure ∧
            setting.tree.Raises failure := by
  refine ⟨Report.accounts_ofRecordings, ?_⟩
  intro σ setting root state report hleaves
  cases hresult : (execute setting root state).2 with
  | ok returned =>
    rw [hresult] at hleaves
    obtain rfl : report = returned := hleaves
    left
    simpa only [report_execute hresult] using accounted_execute setting root state
  | error failure =>
    rw [hresult] at hleaves
    obtain ⟨times, htaken⟩ := hleaves
    obtain ⟨source, details, first, rfl⟩ := Failure.exists_verifier_of_reportAfter htaken
    rcases execute_stop hresult with hraises | ⟨cause, hcause⟩ | ⟨_, _, hsource⟩
    · refine Or.inr ⟨fun hknown => ?_, _, rfl, hraises⟩
      cases hknown.plain.takeReport hraises
    · cases hcause
    · left
      rcases Failure.reportAfter_cases htaken with ⟨-, hfirst⟩ | rfl
      · cases hsource
        cases hfirst
        exact accounted_execute setting root state
      · exact accounted_empty _

/-- A run that the second of two sources stops hands over a report of both, and then an empty one. -/
theorem report_accounted_data_tree :
    let source := Path.ofString "/data/beta/c.bpl"
    let verifier : ScriptedVerifier := { script := [(source, .failed (some 1) none)] }
    let setting := Setting.inMemory { run := { onError := .abort } }
    let result := execute setting (Path.ofString "/data")
      (MemoryTree.ofAdditions dataAdditions, verifier)
    result.1.report.outcomes.length = 2 ∧
      Leaves result.2 result.1.report ∧ Accounted result.1 result.1.report ∧
      Leaves result.2 {} ∧ Accounted result.1 {} := by
  intro source verifier setting result
  have hfailed : result.2 =
      .error (.verifier source "exited with status 1" result.1.report) := by decide +kernel
  have hfirst : Leaves result.2 result.1.report := by
    rw [hfailed]
    exact ⟨0, rfl⟩
  have hsecond : Leaves result.2 {} := by
    rw [hfailed]
    exact ⟨1, rfl⟩
  have hknown : setting.tree.Known := .memory Prod.fst fun changed state => (changed, state.2)
  have haccounted (report : Report) (hleaves : Leaves result.2 report) :
      Accounted result.1 report :=
    (report_accounted.2 setting _ _ report hleaves).resolve_right fun hother => hother.1 hknown
  exact ⟨by decide +kernel, hfirst, haccounted _ hfirst, hsecond, haccounted _ hsecond⟩

end Batch

end BatchVerify
