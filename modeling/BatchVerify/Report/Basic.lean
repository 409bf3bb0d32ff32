import BatchVerify.Path
import BatchVerify.Report.Status

/-!
# Reports

A report gathers the outcome of every file of a run, in order, and keeps running totals.
-/

namespace BatchVerify

/-- What became of one source file. -/
structure Outcome where
  group : Bytes
  source : Path
  target : Path
  status : Status
  deriving DecidableEq, Repr

/-- The outcomes of a run with their totals. -/
structure Report where
  groupsVisited : Nat := 0
  processed : Nat := 0
  succeeded : Nat := 0
  failed : Nat := 0
  outcomes : List Outcome := []
  deriving DecidableEq, Repr

namespace Report

/-- Counts a group. -/
def recordGroup (report : Report) : Report :=
  { report with groupsVisited := report.groupsVisited + 1 }

/-- Adds the outcome of a file. -/
def record (report : Report) (outcome : Outcome) : Report :=
  { report with
    processed := report.processed + 1
    succeeded := report.succeeded + (if outcome.status.isSuccess then 1 else 0)
    failed := report.failed + (if outcome.status.isSuccess then 0 else 1)
    outcomes := report.outcomes ++ [outcome] }

/-- Some file failed. -/
def hasFailures (report : Report) : Bool := 0 < report.failed

/-- The outcomes that are not successes, in order. -/
def failures (report : Report) : List Outcome :=
  report.outcomes.filter fun outcome => !outcome.status.isSuccess

/-- The totals in one line. -/
def summary (report : Report) : String :=
  s!"Processed {report.processed} file(s): {report.succeeded} succeeded, {report.failed} failed"

end Report

end BatchVerify
