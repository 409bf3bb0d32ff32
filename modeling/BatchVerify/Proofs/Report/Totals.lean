import BatchVerify.Report.Basic
import Mathlib.Data.List.Basic
import Mathlib.Data.List.Induction

/-!
# The totals of a report

Totals are kept while a report grows and not computed from its outcomes. `Report.Consistent` says
that they agree with the outcomes; recording keeps it so, and the totals follow from the outcomes then
(`Report.Consistent.totals_eq`). A report that is made by recording tells what was recorded
(`Report.accounts_ofRecordings`).
-/

namespace BatchVerify

theorem Status.isSuccess_eq (status : Status) : status.isSuccess = decide (status = .succeeded) := by
  cases status <;> rfl

namespace Report

/-- The totals are those of the outcomes. -/
structure Consistent (report : Report) : Prop where
  processed : report.processed = report.outcomes.length
  succeeded : report.succeeded = report.outcomes.countP (·.status.isSuccess)
  failed : report.failed = report.failures.length

theorem failures_record (report : Report) (outcome : Outcome) :
    (report.record outcome).failures =
      report.failures ++ if outcome.status.isSuccess then [] else [outcome] := by
  unfold failures record
  rw [List.filter_append, List.filter_singleton]
  cases outcome.status.isSuccess <;> rfl

theorem Consistent.empty : ({} : Report).Consistent := ⟨rfl, rfl, rfl⟩

theorem Consistent.recordGroup {report : Report} (h : report.Consistent) :
    report.recordGroup.Consistent := ⟨h.processed, h.succeeded, h.failed⟩

theorem Consistent.record {report : Report} (h : report.Consistent) (outcome : Outcome) :
    (report.record outcome).Consistent where
  processed := by simp [Report.record, h.processed]
  succeeded := by simp [Report.record, h.succeeded, List.countP_append, List.countP_cons]
  failed := by
    rw [failures_record, List.length_append, ← h.failed]
    unfold Report.record
    cases outcome.status.isSuccess <;> rfl

/-- The failures are the outcomes that are no success. -/
theorem failures_eq (report : Report) :
    report.failures = report.outcomes.filter (·.status ≠ .succeeded) := by
  simp only [failures, Status.isSuccess_eq, ne_eq, decide_not]

/-- The totals tell of a failure where some outcome is one. -/
theorem Consistent.hasFailures_iff {report : Report} (h : report.Consistent) :
    report.hasFailures = true ↔ ∃ outcome ∈ report.outcomes, outcome.status ≠ .succeeded := by
  rw [hasFailures, decide_eq_true_iff, h.failed, List.length_pos_iff_exists_mem, failures_eq]
  simp only [List.mem_filter, decide_eq_true_iff]

/-- Reports with one list of outcomes have one set of totals. -/
theorem Consistent.totals_eq {report report' : Report} (h : report.Consistent) (h' : report'.Consistent)
    (houtcomes : report'.outcomes = report.outcomes) :
    report'.processed = report.processed ∧ report'.succeeded = report.succeeded ∧
      report'.failed = report.failed := by
  refine ⟨?_, ?_, ?_⟩
  · rw [h'.processed, h.processed, houtcomes]
  · rw [h'.succeeded, h.succeeded, houtcomes]
  · rw [h'.failed, h.failed, failures, houtcomes, failures]

end Report

/-! ## What was recorded -/

/-- What a report is told. -/
inductive Recording where
  | group
  | file (outcome : Outcome)
  deriving DecidableEq

/-- The outcome that is told. -/
def Recording.outcome? : Recording → Option Outcome
  | .group => none
  | .file outcome => some outcome

namespace Report

/-- Records what a report is told. -/
def add (report : Report) : Recording → Report
  | .group => report.recordGroup
  | .file outcome => report.record outcome

/-- The report that was told so much, in order. -/
def ofRecordings (recordings : List Recording) : Report := recordings.foldl add {}

theorem ofRecordings_concat (recordings : List Recording) (recording : Recording) :
    ofRecordings (recordings ++ [recording]) = (ofRecordings recordings).add recording := by
  rw [ofRecordings, List.foldl_append]
  rfl

/-- A report is what was recorded, and its totals and failures are those of the outcomes. -/
structure Accounts (report : Report) (recordings : List Recording) : Prop where
  made : report = ofRecordings recordings
  outcomes : report.outcomes = recordings.filterMap Recording.outcome?
  groupsVisited : report.groupsVisited = recordings.count .group
  processed : report.processed = report.outcomes.length
  total : report.processed = report.succeeded + report.failed
  succeeded : report.succeeded = report.outcomes.countP (·.status = .succeeded)
  failures : report.failures = report.outcomes.filter (·.status ≠ .succeeded)
  failed : report.failures.length = report.failed
  hasFailures : report.hasFailures = true ↔ report.failures ≠ []

theorem consistent_ofRecordings (recordings : List Recording) :
    (ofRecordings recordings).Consistent := by
  induction recordings using List.reverseRecOn with
  | nil => exact .empty
  | append_singleton recordings recording ih =>
    rw [ofRecordings_concat]
    cases recording with
    | group => exact ih.recordGroup
    | file outcome => exact ih.record outcome

theorem outcomes_ofRecordings (recordings : List Recording) :
    (ofRecordings recordings).outcomes = recordings.filterMap Recording.outcome? := by
  induction recordings using List.reverseRecOn with
  | nil => rfl
  | append_singleton recordings recording ih =>
    rw [ofRecordings_concat, List.filterMap_append, ← ih]
    cases recording with
    | group => exact (List.append_nil _).symm
    | file outcome => rfl

theorem groupsVisited_ofRecordings (recordings : List Recording) :
    (ofRecordings recordings).groupsVisited = recordings.count .group := by
  induction recordings using List.reverseRecOn with
  | nil => rfl
  | append_singleton recordings recording ih =>
    rw [ofRecordings_concat, List.count_append, ← ih]
    cases recording <;> rfl

/-- A report that is made by recording accounts for what was recorded. -/
theorem accounts_ofRecordings (recordings : List Recording) :
    (ofRecordings recordings).Accounts recordings := by
  have hconsistent := consistent_ofRecordings recordings
  refine
    { made := rfl
      outcomes := outcomes_ofRecordings recordings
      groupsVisited := groupsVisited_ofRecordings recordings
      processed := hconsistent.processed
      total := ?total
      succeeded := by simpa only [Status.isSuccess_eq] using hconsistent.succeeded
      failures := failures_eq _
      failed := hconsistent.failed.symm
      hasFailures := ?hasFailures }
  case total =>
    -- every outcome is a success or a failure
    have hsplit := List.length_eq_countP_add_countP (fun outcome : Outcome => outcome.status.isSuccess)
      (l := (ofRecordings recordings).outcomes)
    rw [hconsistent.processed, hconsistent.succeeded, hconsistent.failed, failures,
      ← List.countP_eq_length_filter]
    simpa only [Bool.not_eq_true, Bool.decide_eq_false] using hsplit
  case hasFailures =>
    rw [hasFailures, decide_eq_true_iff, hconsistent.failed, List.length_pos_iff]

end Report

end BatchVerify
