import BatchVerify.Proofs.Batch.Alignment
import BatchVerify.Proofs.Batch.Endings

/-!
# What a run that gets through leaves behind

Over a tree in memory, the groups of the root and the outcomes of their sources settle all that a run
leaves behind once it gets through: its report, its progress, what it asked the verifier and which
directories it made (`Batch.yields_of_ok`). So two runs can be compared by their outcomes alone.
-/

namespace BatchVerify

/-- The report of so many groups with given outcomes. -/
def Report.tally (groups : Nat) (outcomes : List Outcome) : Report where
  groupsVisited := groups
  processed := outcomes.length
  succeeded := outcomes.countP (·.status.isSuccess)
  failed := (outcomes.filter fun outcome => !outcome.status.isSuccess).length
  outcomes := outcomes

theorem Report.Consistent.eq_tally {report : Report} (h : report.Consistent) :
    report = Report.tally report.groupsVisited report.outcomes := by
  have hfailed : (report.outcomes.filter fun outcome => !outcome.status.isSuccess).length =
      report.failed := h.failed.symm
  rw [tally, ← h.processed, ← h.succeeded, hfailed]

/-- A tree holds the same after an addition if it held the same before. -/
theorem MemoryTree.SameContent.addFile {tree tree' : MemoryTree} (h : tree.SameContent tree')
    (path : Path) : (tree.addFile path).SameContent (tree'.addFile path) := by
  obtain ⟨dirs, files, created, readOnly⟩ := tree
  obtain ⟨rfl, rfl, rfl⟩ := h
  unfold MemoryTree.addFile MemoryTree.addDir
  dsimp only
  split_ifs <;> exact ⟨rfl, rfl, rfl⟩

namespace Batch

variable {config : Config} {tree : MemoryTree} {verifier : ScriptedVerifier} {root : Path}

/-- What a run leaves behind: its report, the lines that it told, the invocations that it asked for and
the directories that it made. -/
structure Yield where
  report : Report
  told : List String
  asked : List Invocation
  made : List Path

/-- The output directories of the groups that have an outcome. -/
def outputDirs (config : Config) (groups : List Group) (outcomes : List Outcome) : List Path :=
  (groups.filter fun group => outcomes.any fun outcome => outcome.group = group.name).map
    fun group => config.layout.outputDir group.name

/-- What is left behind of groups with given outcomes. -/
def Yield.of (config : Config) (groups : List Group) (outcomes : List Outcome) : Yield where
  report := .tally groups.length outcomes
  told := groups.map progressLine
  asked := outcomes.map (Outcome.invocation config.verifier)
  made := outputDirs config groups outcomes

/-- A run from a state gets through and leaves so much behind, besides what was there. -/
structure Yields (config : Config) (root : Path) (start : MemoryTree × ScriptedVerifier)
    (yield : Yield) : Prop where
  report : (execute (Setting.inMemory config) root start).2 = .ok yield.report
  told : progressLines (execute (Setting.inMemory config) root start).1.trace = yield.told
  asked : (execute (Setting.inMemory config) root start).1.state.2.invocations =
    start.2.invocations ++ yield.asked
  made : (execute (Setting.inMemory config) root start).1.state.1.created =
    start.1.created ++ yield.made

/-- The outcomes of all groups of a root, when all of their sources are verified. -/
def outcomesBelow (config : Config) (tree : MemoryTree) (verifier : ScriptedVerifier) (root : Path) :
    List Outcome :=
  (tree.groups root).flatMap (outcomesOf config tree verifier)

theorem groupsVisited_visitGroups {σ : Type} {setting : Setting σ} {groups : List Group}
    {run visited : Run σ} (h : visitGroups setting groups run = (visited, none)) :
    visited.report.groupsVisited = run.report.groupsVisited + groups.length := by
  induction groups generalizing run with
  | nil =>
    cases h
    rfl
  | cons group groups ih =>
    rcases hvisit : visitGroup setting group run with ⟨first, _ | failure⟩
    · rw [visitGroups_cons_of_none hvisit] at h
      rw [ih h, groupsVisited_visitGroup hvisit, List.length_cons]
      omega
    · rw [visitGroups_cons_of_some hvisit] at h
      cases h

/-- A run that gets through counts every group of its root. -/
theorem groupsVisited_execute {report : Report}
    (h : (execute (Setting.inMemory config) root (tree, verifier)).2 = .ok report) :
    report.groupsVisited = (tree.groups root).length := by
  rw [execute_apart_of_contains scriptedVerifier config (outcomes_execute h).1] at h
  rcases hvisit : visitGroups (Setting.inMemory config) (tree.groups root)
      { state := (tree, verifier) } with ⟨visited, _ | failure⟩ <;> rw [hvisit] at h <;> cases h
  exact (groupsVisited_visitGroups hvisit).trans (Nat.zero_add _)

/-- What a run that gets through leaves behind is settled by its groups and their outcomes. -/
theorem yields_of_ok (hwf : tree.WellFormed) {report : Report}
    (h : (execute (Setting.inMemory config) root (tree, verifier)).2 = .ok report) :
    Yields config root (tree, verifier)
      (.of config (tree.groups root) (outcomesBelow config tree verifier root)) := by
  obtain ⟨hroot, houtcomes⟩ := outcomes_execute h
  have hgathered := report_execute h
  have hcounted := groupsVisited_execute h
  have hconsistent : report.Consistent := hgathered ▸ consistent_execute _ root _
  obtain ⟨visits, hcourse⟩ := exists_course (Setting.inMemory config) root (tree, verifier)
  have hvisits : visits.map Visit.group <+: tree.groups root :=
    hcourse.groups_prefix (MemoryTree.listGroups_of_contains hroot)
  refine ⟨?report, ?told, ?asked, ?made⟩
  case report =>
    rw [h, hconsistent.eq_tally, hcounted, houtcomes]
    rfl
  case told =>
    rw [(hcourse.progress hvisits).2, hgathered, hcounted, List.take_length]
    rfl
  case asked =>
    have hasked := asked_execute config root tree verifier
    rw [Asked, hgathered, houtcomes] at hasked
    exact hasked
  case made =>
    have hdirs := hcourse.dirs_effects hvisits (hwf.nodup_groupNames root)
    rw [hgathered, houtcomes] at hdirs
    exact (created_execute scriptedVerifier config root tree verifier).trans (congrArg _ hdirs)

/-- Where directories can be made, a run that keeps going gets through. -/
theorem yields_of_keepGoing (verifier : ScriptedVerifier) (hwf : tree.WellFormed)
    (hroot : tree.dirs.contains root = true) (hwritable : tree.readOnly = false)
    (hkeep : config.run.onError = .keepGoing) :
    Yields config root (tree, verifier)
      (.of config (tree.groups root) (outcomesBelow config tree verifier root)) := by
  have hquiet : ¬ Aborts config tree verifier root := by
    rintro ⟨habort, -⟩
    cases habort.symm.trans hkeep
  obtain ⟨report, hreport⟩ :=
    exists_report_of_not_aborts hroot (Bool.eq_false_iff.mp hwritable) hquiet
  exact yields_of_ok hwf hreport

/-- The outcomes hang on what is in the tree and on the script, and on nothing else. -/
theorem outcomesBelow_congr {tree' : MemoryTree} {verifier' : ScriptedVerifier}
    (htree : tree.SameContent tree') (hscript : verifier.script = verifier'.script) :
    outcomesBelow config tree verifier root = outcomesBelow config tree' verifier' root := by
  have hgroups : tree.groups root = tree'.groups root := by
    unfold MemoryTree.groups
    rw [htree.1]
  unfold outcomesBelow
  rw [hgroups]
  congr 1
  funext group
  unfold outcomesOf
  rw [htree.sources_eq, ScriptedVerifier.statusOf_congr hscript]

end Batch

end BatchVerify
