import BatchVerify.Proofs.Batch.Coverage
import BatchVerify.Proofs.Batch.FirstFailure

/-!
# Aborted runs

Over a tree in memory a run that aborts is the run that keeps going, cut right after its first
failed outcome (`Batch.CutAt`): report, counts, progress, invocations and directories are those up
to there. Without a failed outcome the two runs are one.
-/

namespace BatchVerify.Batch

section

variable {τ : Type} {verifier : Verifier τ} {config : Config} {groups : List Group}
  {run : Run (MemoryTree × τ)}

/-- Directories that were asked for stay noted. -/
theorem created_prefix_step {next : Run (MemoryTree × τ)}
    (h : Step (Setting.apart memoryTree verifier config) run next) :
    run.state.1.created <+: next.state.1.created := by
  cases h with
  | announce group => exact List.prefix_rfl
  | openGroup group =>
    rcases state_openGroup (Setting.apart memoryTree verifier config) group run with h | h
    · simp [h]
    · rw [h]
      show _ <+: (run.state.1.ensureDir (config.layout.outputDir group.name)).2.created
      unfold MemoryTree.ensureDir
      split_ifs
      · exact List.prefix_rfl
      · exact List.prefix_append _ _
  | verify group source => exact List.prefix_rfl

/-- Where directories can be made, a run that keeps going gets through. -/
theorem visitGroups_keepGoing {tree : MemoryTree}
    (hknown : ∀ group ∈ groups, tree.dirs.contains group.path = true)
    (htree : run.state.1.SameContent tree) (h : ¬ tree.readOnly = true) :
    (visitGroups (Setting.apart memoryTree verifier (config.under .keepGoing)) groups run).2 =
      none := by
  rcases hvisit : visitGroups (Setting.apart memoryTree verifier (config.under .keepGoing))
      groups run with ⟨visited, _ | failure⟩
  · rfl
  · obtain ⟨group, sources, opened, hstop⟩ := visitGroups_stop_of_writable hknown htree h hvisit
    have hnone := verifySources_keepGoing (Setting.apart memoryTree verifier config) group sources
      opened
    rw [show (Setting.apart memoryTree verifier config).under .keepGoing =
      Setting.apart memoryTree verifier (config.under .keepGoing) from rfl, hstop] at hnone
    cases hnone

end

/-- What an aborted run has at its end, against the run that keeps going: everything up to and
including the first failed outcome, and nothing after it. -/
structure CutAt (config : Config) (groups : List Group) (start : MemoryTree × ScriptedVerifier)
    (failed : Outcome) (aborted whole : Run (MemoryTree × ScriptedVerifier)) : Prop where
  outcomes : aborted.report.outcomes =
    whole.report.outcomes.takeWhile (·.status.isSuccess) ++ [failed]
  outcomes_whole : aborted.report.outcomes <+: whole.report.outcomes
  failed_count : aborted.report.failed = 1
  /-- The groups are counted up to the one of the failed outcome. -/
  groupsVisited : failed.group ∈ groups.map Group.name ∧
    aborted.report.groupsVisited = (groups.map Group.name).idxOf failed.group + 1
  trace : aborted.trace <+: whole.trace
  progress : progressLines aborted.trace <+: progressLines whole.trace
  /-- The failed source is the last one that the verifier is asked about. -/
  invocations : ∃ asked rest,
    aborted.state.2.invocations =
      start.2.invocations ++ (asked ++ [failed.invocation config.verifier]) ∧
    whole.state.2.invocations =
      start.2.invocations ++ (asked ++ failed.invocation config.verifier :: rest)
  created : ∃ made rest, aborted.state.1.created = start.1.created ++ made ∧
    whole.state.1.created = start.1.created ++ (made ++ rest)

variable {config : Config} {tree : MemoryTree} {verifier : ScriptedVerifier} {root : Path}

theorem created_extend {run later : Run (MemoryTree × ScriptedVerifier)}
    (h : Reaches (Setting.inMemory config) run later) :
    run.state.1.created <+: later.state.1.created :=
  h.keeps (P := fun stage => run.state.1.created <+: stage.state.1.created)
    (fun hstep hstage => hstage.trans (created_prefix_step hstep)) List.prefix_rfl

theorem cutAt_first (hwf : tree.WellFormed)
    (first : FirstFailure (Setting.inMemory config) { state := (tree, verifier) })
    {before after : List Group} (hgroups : tree.groups root = before ++ first.group :: after)
    (hcount : first.stopped.report.groupsVisited = before.length + 1)
    {visited : Run (MemoryTree × ScriptedVerifier)}
    (hreaches : Reaches (Setting.inMemory config) first.stopped visited) :
    CutAt config (tree.groups root) (tree, verifier) first.outcome first.stopped
      (finish (visited, none)).1 := by
  obtain ⟨later, hlater⟩ := hreaches.outcomes_extend
  obtain ⟨made, hmade⟩ := created_extend first.reaches_stopped
  obtain ⟨made', hmade'⟩ := created_extend hreaches
  have hasked : Asked config verifier.invocations first.stopped :=
    first.reaches_stopped.keeps asked_step (by simp [Asked])
  have haskedAll : Asked config verifier.invocations visited := hreaches.keeps asked_step hasked
  have htold : first.stopped.trace <+: (finish (visited, none)).1.trace :=
    hreaches.trace_extend.trans (List.prefix_append _ _)
  rw [first.outcomes_stopped, List.append_assoc, List.singleton_append] at hlater
  refine
    { outcomes := ?outcomes
      outcomes_whole := ⟨later, ?outcomes_whole⟩
      failed_count := ?failed_count
      groupsVisited := ?groupsVisited
      trace := htold
      progress := htold.filterMap _
      invocations := ?invocations
      created := ⟨made, made', hmade.symm, ?created⟩ }
  case outcomes =>
    show _ = visited.report.outcomes.takeWhile _ ++ _
    -- all outcomes before the failed one are successes, so it is where the longest such start ends
    rw [first.outcomes_stopped, ← hlater,
      List.takeWhile_append_of_pos fun outcome h => first.isSuccess_of_mem_quiet h,
      List.takeWhile_cons_of_neg, List.append_nil]
    exact Bool.eq_false_iff.mp first.failed
  case outcomes_whole =>
    rw [first.outcomes_stopped, List.append_assoc]
    exact hlater
  case failed_count =>
    have hconsistent := first.reaches_stopped.keeps consistent_step Report.Consistent.empty
    rw [hconsistent.failed, first.failures_stopped]
    rfl
  case groupsVisited =>
    have hnodup := hwf.nodup_groupNames root
    rw [hgroups, List.map_append, List.map_cons] at hnodup ⊢
    -- groups differ by name, so the name tells the position
    have hnew : first.group.name ∉ before.map Group.name := by
      intro hmem
      exact (List.nodup_append.mp hnodup).2.2 _ hmem _ List.mem_cons_self rfl
    refine ⟨List.mem_append_right _ List.mem_cons_self, ?_⟩
    show _ = List.idxOf first.group.name _ + 1
    rw [hcount, List.idxOf_append_of_notMem hnew, List.idxOf_cons_self, List.length_map,
      Nat.add_zero]
  case invocations =>
    refine ⟨first.quiet.report.outcomes.map (Outcome.invocation config.verifier),
      later.map (Outcome.invocation config.verifier), ?_, ?_⟩
    · rw [hasked, first.outcomes_stopped, List.map_append, List.map_singleton]
    · show visited.state.2.invocations = _
      rw [haskedAll, ← hlater, List.map_append, List.map_cons]
  case created =>
    show visited.state.1.created = _
    rw [← hmade', ← hmade, List.append_assoc]

/-- How the groups of a root are visited under a policy. -/
def visits (config : Config) (policy : FailurePolicy) (root : Path)
    (start : MemoryTree × ScriptedVerifier) :
    Run (MemoryTree × ScriptedVerifier) × Option Failure :=
  visitGroups (Setting.inMemory (config.under policy)) (start.1.groups root) { state := start }

theorem visits_cut (config : Config) (root : Path) (start : MemoryTree × ScriptedVerifier) :
    Cut (Setting.inMemory config) (start.1.groups root) { state := start }
      (visits config .abort root start) (visits config .keepGoing root start) :=
  visitGroups_cut (Setting.inMemory config) (start.1.groups root) { state := start }

/-- Where a source was verified directories can be made, so a run that keeps going gets through. -/
theorem visits_keepGoing_of_first {start : MemoryTree × ScriptedVerifier}
    {first : FirstFailure (Setting.inMemory config) { state := start }}
    (h : visits config .abort root start = (first.stopped, some first.failure)) :
    (visits config .keepGoing root start).2 = none := by
  have hknown : ∀ group ∈ start.1.groups root, start.1.dirs.contains group.path = true :=
    fun _ => MemoryTree.contains_of_mem_groups
  by_cases hreadOnly : start.1.readOnly = true
  · have hnone : (visits config .abort root start).1.report.outcomes = [] :=
      outcomes_visitGroups_of_readOnly hknown ⟨rfl, rfl, rfl⟩ hreadOnly
    rw [h, first.outcomes_stopped] at hnone
    exact absurd hnone (List.append_ne_nil_of_right_ne_nil _ (List.cons_ne_nil _ _))
  · exact visitGroups_keepGoing hknown ⟨rfl, rfl, rfl⟩ hreadOnly

/-- A run that aborts is the run that keeps going, cut at its first failed outcome if there is
one. -/
theorem execute_abort {additions : List Addition}
    (hreachable : MemoryTree.Reachable additions tree) (config : Config)
    (verifier : ScriptedVerifier) (root : Path) :
    let whole := execute (Setting.inMemory (config.under .keepGoing)) root (tree, verifier)
    let aborted := execute (Setting.inMemory (config.under .abort)) root (tree, verifier)
    match whole.2 with
    | .error _ => aborted = whole
    | .ok report =>
      match report.failures with
      | [] => aborted = whole
      | failed :: _ =>
        aborted.2 =
          .error (.verifier failed.source failed.status.describe aborted.1.report) ∧
        CutAt config (tree.groups root) (tree, verifier) failed aborted.1 whole.1 := by
  by_cases hroot : tree.dirs.contains root = true
  · have hexecute : ∀ policy,
        execute (Setting.inMemory (config.under policy)) root (tree, verifier) =
          finish (visits config policy root (tree, verifier)) :=
      fun policy => execute_apart_of_contains scriptedVerifier (config.under policy) hroot verifier
    have hcut := visits_cut config root (tree, verifier)
    rw [hexecute, hexecute]
    generalize habort : visits config .abort root (tree, verifier) = cut at hcut ⊢
    generalize hkeep : visits config .keepGoing root (tree, verifier) = kept at hcut ⊢
    cases hcut with
    | same hquiet =>
      -- without a failure the two runs are one, so only the result decides
      rcases cut with ⟨visited, _ | failure⟩
      · show match visited.report.failures with
          | [] => _
          | _ :: _ => _
        rw [show visited.report.failures = [] from hquiet]
      · rfl
    | short before after first hgroups hcount hreaches =>
      have hgets := visits_keepGoing_of_first habort
      rw [hkeep] at hgets
      obtain ⟨visited, stop⟩ := kept
      obtain rfl : stop = none := hgets
      obtain ⟨rest, hfailures⟩ := first.failures_of_reaches hreaches
      show match visited.report.failures with
        | [] => _
        | _ :: _ => _
      rw [hfailures]
      refine ⟨rfl, ?_⟩
      exact cutAt_first hreachable.wellFormed first hgroups (by simpa using hcount) hreaches
  · -- an unknown root is refused before the policy is looked at
    rw [execute_apart_of_not_contains scriptedVerifier _ hroot,
      execute_apart_of_not_contains scriptedVerifier _ hroot]

/-- The first of two groups fails, and the second one is not visited. -/
theorem execute_abort_data_tree :
    let source := Path.ofString "/data/alpha/a.bpl"
    let verifier : ScriptedVerifier := { script := [(source, .failed (some 1) none)] }
    let aborted := execute (Setting.inMemory (Config.under {} .abort)) (Path.ofString "/data")
      (MemoryTree.ofAdditions dataAdditions, verifier)
    aborted.2 = .error (.verifier source "exited with status 1" aborted.1.report) ∧
      aborted.1.report.failed = 1 ∧ aborted.1.report.groupsVisited = 1 := by
  intro source verifier aborted
  have habort := execute_abort (MemoryTree.reachable_ofAdditions dataAdditions) {} verifier
    (Path.ofString "/data")
  have hreport : (execute (Setting.inMemory (Config.under {} .keepGoing)) (Path.ofString "/data")
      (MemoryTree.ofAdditions dataAdditions, verifier)).2 =
      .ok (execute (Setting.inMemory (Config.under {} .keepGoing)) (Path.ofString "/data")
        (MemoryTree.ofAdditions dataAdditions, verifier)).1.report := by decide +kernel
  have hfailures : (execute (Setting.inMemory (Config.under {} .keepGoing))
      (Path.ofString "/data")
      (MemoryTree.ofAdditions dataAdditions, verifier)).1.report.failures =
      [ { group := Utf8.encode "alpha"
          source
          target := Path.ofString "../BoogieCollection/SMTs/DAFNY3/alpha/a.smt2"
          status := .failed (some 1) none } ] := by decide +kernel
  dsimp only at habort
  rw [hreport] at habort
  dsimp only at habort
  rw [hfailures] at habort
  obtain ⟨hfailure, hcut⟩ := habort
  exact ⟨hfailure, hcut.failed_count, hcut.groupsVisited.2.trans (by decide +kernel)⟩

end BatchVerify.Batch
