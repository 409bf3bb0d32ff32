import BatchVerify.Proofs.Batch.Order

/-!
# Effects and records

What a run does to the world and what it puts on record come from the same visits. So its answers
are its outcomes (`Batch.Course.answers_effects`), its directories are those of the groups that have
an outcome (`Batch.Course.dirs_effects`), and a directory is there before anything is written to it
(`ensured_of_effects`). Over a tree in memory this accounts for all that a run leaves behind
(`Batch.execute_aligned`).
-/

namespace BatchVerify

variable {σ τ : Type}

/-! ## What visits do -/

section Visits

variable {setting : Setting σ} {visit : Visit} {visits : List Visit}

namespace Visit

theorem outcomes_eq_nil_iff (setting : Setting σ) (visit : Visit) :
    visit.outcomes setting = [] ↔ visit.answered = [] :=
  List.map_eq_nil_iff

theorem group_of_mem_outcomes {outcome : Outcome} (h : outcome ∈ visit.outcomes setting) :
    outcome.group = visit.group.name := by
  obtain ⟨answer, -, rfl⟩ := List.mem_map.mp h
  rfl

/-- The verifier is asked about the outcomes of a visit. -/
theorem answers_effects (setting : Setting σ) (visit : Visit) :
    (visit.effects setting).filterMap Effect.answer? =
      (visit.outcomes setting).map fun outcome =>
        (outcome.invocation setting.config.verifier, outcome.status) := by
  unfold effects
  split_ifs with hnil
  · rw [(outcomes_eq_nil_iff setting visit).mpr hnil]
    rfl
  · rw [List.filterMap_cons_none rfl, List.filterMap_map, ← List.filterMap_eq_map]
    rfl

/-- One directory is made for a visit, unless nothing is verified. -/
theorem dirs_effects (setting : Setting σ) (visit : Visit) :
    (visit.effects setting).filterMap Effect.dir? =
      if visit.answered = [] then [] else [setting.config.layout.outputDir visit.group.name] := by
  unfold effects
  split_ifs with hnil
  · rfl
  · simp [List.filterMap_map, Function.comp_def, Effect.dir?]

/-- What is verified in a visit is verified after the directory is made. -/
theorem ensured_of_effects {before after : List Effect} {invocation : Invocation} {status : Status}
    (h : visit.effects setting = before ++ .verified invocation status :: after) :
    (∃ outcome ∈ visit.outcomes setting,
        outcome.invocation setting.config.verifier = invocation ∧ outcome.status = status) ∧
      .ensured (setting.config.layout.outputDir visit.group.name) ∈ before := by
  unfold effects at h
  split_ifs at h with hnil
  · simp at h
  · cases before with
    | nil => simp at h
    | cons first before =>
      obtain ⟨rfl, hverified⟩ := List.cons.inj h
      have hmem : Effect.verified invocation status ∈ (visit.outcomes setting).map fun outcome =>
          .verified (outcome.invocation setting.config.verifier) outcome.status := by
        rw [hverified]
        exact List.mem_append_right _ List.mem_cons_self
      obtain ⟨outcome, houtcome, heq⟩ := List.mem_map.mp hmem
      cases heq
      exact ⟨⟨outcome, houtcome, rfl, rfl⟩, List.mem_cons_self⟩

end Visit

/-- Whatever is verified in some visits is an outcome of one of them, and its directory was made
before. -/
theorem ensured_of_effects {before after : List Effect} {invocation : Invocation} {status : Status}
    (h : visits.flatMap (Visit.effects setting) =
      before ++ .verified invocation status :: after) :
    ∃ outcome ∈ visits.flatMap (Visit.outcomes setting),
      outcome.invocation setting.config.verifier = invocation ∧ outcome.status = status ∧
      .ensured (setting.config.layout.outputDir outcome.group) ∈ before := by
  induction visits generalizing before with
  | nil => simp at h
  | cons visit visits ih =>
    rw [List.flatMap_cons, List.append_eq_append_iff] at h
    rcases h with ⟨later, rfl, hlater⟩ | ⟨rest, hvisit, hrest⟩
    · -- in a later visit
      obtain ⟨outcome, hmem, hinvocation, hstatus, hensured⟩ := ih hlater
      exact ⟨outcome, List.mem_append_right _ hmem, hinvocation, hstatus,
        List.mem_append_right _ hensured⟩
    · cases rest with
      | nil =>
        -- no later visit starts so
        have hfirst : visits.flatMap (Visit.effects setting) =
            [] ++ .verified invocation status :: after := hrest.symm
        obtain ⟨outcome, -, -, -, hensured⟩ := ih hfirst
        cases hensured
      | cons effect rest =>
        obtain ⟨rfl, -⟩ := List.cons.inj hrest
        obtain ⟨⟨outcome, hmem, hinvocation, hstatus⟩, hensured⟩ := Visit.ensured_of_effects hvisit
        refine ⟨outcome, List.mem_append_left _ hmem, hinvocation, hstatus, ?_⟩
        rwa [Visit.group_of_mem_outcomes hmem]

/-- One directory is made for each visit in which something is verified. -/
theorem dirs_of_effects (setting : Setting σ) (visits : List Visit) :
    (visits.flatMap (Visit.effects setting)).filterMap Effect.dir? =
      (visits.filter fun visit => visit.answered ≠ []).map fun visit =>
        setting.config.layout.outputDir visit.group.name := by
  induction visits with
  | nil => rfl
  | cons visit visits ih =>
    rw [List.flatMap_cons, List.filterMap_append, ih, Visit.dirs_effects, List.filter_cons]
    by_cases hnil : visit.answered = [] <;> simp [hnil]

/-- A group has an outcome just when something is verified in a visit of that name. -/
theorem any_outcome_iff {group : Group} :
    ((visits.flatMap (Visit.outcomes setting)).any fun outcome => outcome.group = group.name) =
      true ↔ ∃ visit ∈ visits, visit.answered ≠ [] ∧ visit.group.name = group.name := by
  rw [List.any_eq_true]
  constructor
  · rintro ⟨outcome, hmem, hgroup⟩
    obtain ⟨visit, hvisit, houtcome⟩ := List.mem_flatMap.mp hmem
    refine ⟨visit, hvisit, ?_, ?_⟩
    · exact mt (Visit.outcomes_eq_nil_iff setting visit).mpr (List.ne_nil_of_mem houtcome)
    · rw [← Visit.group_of_mem_outcomes houtcome]
      exact of_decide_eq_true hgroup
  · rintro ⟨visit, hvisit, hanswered, hname⟩
    obtain ⟨outcome, houtcome⟩ := List.exists_mem_of_ne_nil _
      (mt (Visit.outcomes_eq_nil_iff setting visit).mp hanswered)
    refine ⟨outcome, List.mem_flatMap.mpr ⟨visit, hvisit, houtcome⟩, ?_⟩
    rw [Visit.group_of_mem_outcomes houtcome]
    exact decide_eq_true hname

/-- The visits in which something is verified are those of the groups that have an outcome. -/
theorem filter_groups {groups : List Group} (hvisits : visits.map Visit.group <+: groups)
    (hnodup : (groups.map Group.name).Nodup) :
    (groups.filter fun group =>
        (visits.flatMap (Visit.outcomes setting)).any fun outcome => outcome.group = group.name) =
      (visits.filter fun visit => visit.answered ≠ []).map Visit.group := by
  obtain ⟨rest, rfl⟩ := hvisits
  rw [List.map_append, List.nodup_append] at hnodup
  obtain ⟨hnames, -, hrest⟩ := hnodup
  rw [List.map_map] at hnames
  -- groups that were not visited have names of their own
  have hnone : rest.filter (fun group =>
      (visits.flatMap (Visit.outcomes setting)).any fun outcome => outcome.group = group.name) =
      [] := by
    rw [List.filter_eq_nil_iff]
    intro group hgroup hany
    obtain ⟨visit, hvisit, -, hname⟩ := any_outcome_iff.mp hany
    refine hrest _ ?_ _ (List.mem_map_of_mem hgroup) hname
    exact List.mem_map_of_mem (List.mem_map_of_mem hvisit)
  rw [List.filter_append, hnone, List.append_nil, List.filter_map]
  refine congrArg _ (List.filter_congr fun visit hvisit => ?_)
  rw [Bool.eq_iff_iff, Function.comp_apply, any_outcome_iff, decide_eq_true_iff]
  constructor
  · rintro ⟨visit', hvisit', hanswered, hname⟩
    rwa [← List.inj_on_of_nodup_map hnames hvisit' hvisit hname]
  · exact fun hanswered => ⟨visit, hvisit, hanswered, rfl⟩

end Visits

/-- The groups of a root have output directories of their own. -/
theorem MemoryTree.WellFormed.pairwise_outputDir {tree : MemoryTree} (h : tree.WellFormed)
    (root : Path) (layout : Layout) :
    (tree.groups root).Pairwise fun group group' =>
      ¬ (layout.outputDir group.name).Same (layout.outputDir group'.name) := by
  refine (List.pairwise_map.mp (h.nodup_groupNames root)).imp_of_mem ?_
  intro group group' hgroup hgroup' hne hsame
  have hproper := Path.proper_of_name? (MemoryTree.mem_groups.mp hgroup).2.2
  have hproper' := Path.proper_of_name? (MemoryTree.mem_groups.mp hgroup').2.2
  exact hne (Layout.outputDir_injective hproper hproper' hsame)

namespace Batch

/-! ## What runs do -/

section Courses

variable {setting : Setting σ} {sound : σ → Prop} {root : Path} {state : σ} {visits : List Visit}

/-- The verifier is asked about the outcomes, in order. -/
theorem Course.answers_effects (h : Course setting sound root state visits) :
    (Batch.effects setting root state).filterMap Effect.answer? =
      (execute setting root state).1.report.outcomes.map fun outcome =>
        (outcome.invocation setting.config.verifier, outcome.status) := by
  rw [h.effects, h.outcomes, List.filterMap_flatMap, List.map_flatMap]
  simp only [Visit.answers_effects]

/-- The directories that are made are those of the groups that have an outcome, in order. -/
theorem Course.dirs_effects (h : Course setting sound root state visits) {groups : List Group}
    (hvisits : visits.map Visit.group <+: groups) (hnodup : (groups.map Group.name).Nodup) :
    (Batch.effects setting root state).filterMap Effect.dir? =
      (groups.filter fun group => (execute setting root state).1.report.outcomes.any fun outcome =>
        outcome.group = group.name).map fun group =>
          setting.config.layout.outputDir group.name := by
  rw [h.effects, h.outcomes, filter_groups hvisits hnodup, dirs_of_effects, List.map_map]
  rfl

/-- Every target is the one of a group and of the stem of its source. -/
theorem Course.target (h : Course setting sound root state visits) (horderly : setting.Orderly sound)
    (hstate : sound state) {groups : List Group} (hvisits : visits.map Visit.group <+: groups)
    {outcome : Outcome} (hmem : outcome ∈ (execute setting root state).1.report.outcomes) :
    ∃ group ∈ groups, ∃ stem, outcome.group = group.name ∧ outcome.source.stem? = some stem ∧
      outcome.target = setting.config.layout.target group.name stem := by
  obtain ⟨stem, hplaced⟩ := h.placed horderly hstate hmem
  rw [h.outcomes] at hmem
  obtain ⟨visit, hvisit, houtcome⟩ := List.mem_flatMap.mp hmem
  have hgroup := Visit.group_of_mem_outcomes houtcome
  refine ⟨visit.group, hvisits.subset (List.mem_map_of_mem hvisit), stem, hgroup,
    hplaced.stem?, ?_⟩
  rw [← hgroup]
  exact hplaced.target

end Courses

/-! ## What a run leaves behind in memory -/

section

variable {verifier : Verifier τ} {config : Config}

/-- A tree in memory notes a directory just when it is made. -/
theorem created_ensureDir {before : List Path} {state : (MemoryTree × τ) × List Effect} (dir : Path)
    (h : state.1.1.created = before ++ state.2.filterMap Effect.dir?) :
    let made := ((Setting.apart memoryTree verifier config).recorded.tree.ensureDir dir state).2
    made.1.1.created = before ++ made.2.filterMap Effect.dir? := by
  intro made
  have hmade : made = (((state.1.1.ensureDir dir).2, state.1.2), state.2 ++
      if (state.1.1.ensureDir dir).1.isOk then [.ensured dir] else []) := rfl
  by_cases hreadOnly : state.1.1.readOnly = true
  · rw [hmade, MemoryTree.ensureDir_of_readOnly dir hreadOnly]
    simpa [Except.isOk, Except.toBool] using h
  · rw [hmade, MemoryTree.ensureDir_of_not_readOnly dir hreadOnly]
    simp [h, Except.isOk, Except.toBool, Effect.dir?]

theorem created_step {before : List Path} {run next : Run ((MemoryTree × τ) × List Effect)}
    (h : Step (Setting.apart memoryTree verifier config).recorded run next)
    (hrun : run.state.1.1.created = before ++ run.state.2.filterMap Effect.dir?) :
    next.state.1.1.created = before ++ next.state.2.filterMap Effect.dir? := by
  cases h with
  | announce group => exact hrun
  | openGroup group =>
    rcases state_openGroup (Setting.apart memoryTree verifier config).recorded group run with
      hsame | hmade
    · rwa [hsame]
    · rw [hmade]
      exact created_ensureDir _ hrun
  | verify group source =>
    show run.state.1.1.created = before ++ List.filterMap _ (_ ++ _)
    rw [List.filterMap_append, hrun]
    exact congrArg _ (List.append_nil _).symm

/-- Whatever the result of a run, the tree noted the directories that it made. -/
theorem created_execute (verifier : Verifier τ) (config : Config) (root : Path) (tree : MemoryTree)
    (state : τ) :
    let setting := Setting.apart memoryTree verifier config
    (execute setting root (tree, state)).1.state.1.created =
      tree.created ++ (effects setting root (tree, state)).filterMap Effect.dir? := by
  intro setting
  obtain ⟨hstep, -⟩ := execute_recorded setting root (tree, state)
  rw [← hstep.state]
  refine execute_keeps created_step (fun events hrun => hrun) ?_
  exact (List.append_nil _).symm

end

variable {config : Config} {tree : MemoryTree} {verifier : ScriptedVerifier} {root : Path}

/-- Every status is what the script answers. -/
def Answered (verifier : ScriptedVerifier) (run : Run (MemoryTree × ScriptedVerifier)) : Prop :=
  run.state.2.script = verifier.script ∧
    ∀ outcome ∈ run.report.outcomes, outcome.status = verifier.statusOf outcome.source

theorem answered_step {run next : Run (MemoryTree × ScriptedVerifier)}
    (h : Step (Setting.inMemory config) run next) (hrun : Answered verifier run) :
    Answered verifier next := by
  refine ⟨(script_step h).trans hrun.1, ?_⟩
  cases h with
  | announce group => exact hrun.2
  | openGroup group =>
    rw [report_openGroup]
    exact hrun.2
  | verify group source =>
    intro outcome hmem
    rcases List.mem_append.mp hmem with hmem | hmem
    · exact hrun.2 outcome hmem
    · obtain rfl := List.mem_singleton.mp hmem
      show run.state.2.statusOf source.path = _
      rw [ScriptedVerifier.statusOf_congr hrun.1]

theorem answered_execute (config : Config) (root : Path) (tree : MemoryTree)
    (verifier : ScriptedVerifier) :
    Answered verifier (execute (Setting.inMemory config) root (tree, verifier)).1 := by
  refine execute_keeps answered_step (fun events hrun => hrun) ⟨rfl, ?_⟩
  intro outcome hmem
  cases hmem

/-- How all that a run left behind goes with its report: `groups` are the groups of its root, `log`
is what it did to the world and `trace` what it told. -/
structure Aligned (config : Config) (groups : List Group)
    (start finish : MemoryTree × ScriptedVerifier) (log : List Effect) (trace : List Event)
    (report : Report) : Prop where
  /-- The verifier was asked about the outcomes, in order, and about nothing else. -/
  asked : finish.2.invocations =
    start.2.invocations ++ report.outcomes.map (Outcome.invocation config.verifier)
  /-- Paths reach the verifier byte by byte. -/
  carried : ∀ outcome ∈ report.outcomes,
    (outcome.invocation config.verifier).args[1]? = some outcome.source.bytes ∧
      (outcome.invocation config.verifier).args[2]? =
        some (Utf8.encode "-proverLog:" ++ outcome.target.bytes)
  target : ∀ outcome ∈ report.outcomes, ∃ group ∈ groups, ∃ stem,
    outcome.group = group.name ∧ outcome.source.stem? = some stem ∧
      outcome.target = config.layout.target group.name stem
  /-- Every status is what the verifier answers to that invocation. -/
  status : ∀ outcome ∈ report.outcomes,
    outcome.status = (scriptedVerifier.run (outcome.invocation config.verifier) start.2).1.status
  /-- The directories of the groups that have an outcome were made, in order, and no others. -/
  made : finish.1.created = start.1.created ++
    (groups.filter fun group => report.outcomes.any fun outcome => outcome.group = group.name).map
      fun group => config.layout.outputDir group.name
  /-- No two groups share a directory. -/
  apart : groups.Pairwise fun group group' =>
    ¬ (config.layout.outputDir group.name).Same (config.layout.outputDir group'.name)
  /-- What was done to the world are these invocations and these directories ... -/
  answers : log.filterMap Effect.answer? = report.outcomes.map fun outcome =>
    (outcome.invocation config.verifier, outcome.status)
  dirs : finish.1.created = start.1.created ++ log.filterMap Effect.dir?
  /-- ... and a directory was made before anything was to be written to it. -/
  ensured : ∀ before invocation status after, log = before ++ .verified invocation status :: after →
    ∃ outcome ∈ report.outcomes, outcome.invocation config.verifier = invocation ∧
      outcome.status = status ∧ .ensured (config.layout.outputDir outcome.group) ∈ before
  counted : report.groupsVisited ≤ groups.length
  /-- The first groups were told, with and without sources. -/
  told : progressText trace =
    String.join ((groups.take report.groupsVisited).map fun group => group.path.display ++ ":\n")

/-- A run that hands over a report knows its root. -/
theorem contains_of_handedOver {report : Report}
    (h : handedOver (execute (Setting.inMemory config) root (tree, verifier)).2 = some report) :
    tree.dirs.contains root = true := by
  by_contra hroot
  rw [execute_apart_of_not_contains scriptedVerifier config hroot] at h
  dsimp only at h
  split_ifs at h <;> cases h

/-- The effects of a run that hands over a report are those that its report tells. -/
theorem execute_aligned {additions : List Addition} {report : Report}
    (hreachable : MemoryTree.Reachable additions tree)
    (h : handedOver (execute (Setting.inMemory config) root (tree, verifier)).2 = some report) :
    ∃ listing, memoryTree.listGroups root tree = .ok listing ∧
      Aligned config (listing.kept.filterMap Group.ofPath?) (tree, verifier)
        (execute (Setting.inMemory config) root (tree, verifier)).1.state
        (effects (Setting.inMemory config) root (tree, verifier))
        (execute (Setting.inMemory config) root (tree, verifier)).1.trace report := by
  have hgrown : (tree, verifier).1.Grown := ⟨additions, hreachable⟩
  have hlisting := MemoryTree.listGroups_of_contains (contains_of_handedOver h)
  obtain ⟨rfl, horderly, visits, hcourse⟩ :=
    course_of_handedOver (Setting.Over.inMemory config) hgrown h
  have hvisits : visits.map Visit.group <+: tree.groups root := hcourse.groups_prefix hlisting
  have hnodup := hreachable.wellFormed.nodup_groupNames root
  have hmade := created_execute scriptedVerifier config root tree verifier
  obtain ⟨hcounted, htold⟩ := hcourse.progress hvisits
  refine ⟨_, hlisting, ?_⟩
  refine
    { asked := asked_execute config root tree verifier
      carried := fun outcome _ => ⟨rfl, rfl⟩
      target := fun outcome hmem => hcourse.target horderly hgrown hvisits hmem
      status := fun outcome hmem => (answered_execute config root tree verifier).2 outcome hmem
      made := hmade.trans (congrArg _ (hcourse.dirs_effects hvisits hnodup))
      apart := hreachable.wellFormed.pairwise_outputDir root config.layout
      answers := hcourse.answers_effects
      dirs := hmade
      ensured := ?ensured
      counted := hcounted
      told := congrArg String.join htold }
  case ensured =>
    intro before invocation status after hlog
    rw [hcourse.effects] at hlog
    rw [hcourse.outcomes]
    exact ensured_of_effects hlog

/-- A group without sources between two others, one of which has a source whose name is no text. -/
def gapAdditions : List Addition :=
  [ .directory (Path.ofString "/data"),
    .file ⟨Utf8.encode "/data/alpha/" ++ 0xff :: Utf8.encode ".bpl"⟩,
    .file (Path.ofString "/data/beta/b.txt"),
    .file (Path.ofString "/data/gamma/c.bpl"),
    .file (Path.ofString "/data/gamma/d.bpl") ]

/-- The second of three sources fails under the policy to abort: all three groups are told, two
directories are made and two invocations are on record. -/
theorem execute_aligned_gap :
    let config : Config :=
      { layout := { outputRoot := Path.ofString "/logs" }, run := { onError := .abort } }
    let verifier : ScriptedVerifier :=
      { script := [(Path.ofString "/data/gamma/c.bpl", .failed (some 1) none)] }
    let start := (MemoryTree.ofAdditions gapAdditions, verifier)
    let result := execute (Setting.inMemory config) (Path.ofString "/data") start
    ∃ report listing, handedOver result.2 = some report ∧
      memoryTree.listGroups (Path.ofString "/data") start.1 = .ok listing ∧
      report.groupsVisited = 3 ∧ report.outcomes.length = 2 ∧
      result.1.state.1.created = [Path.ofString "/logs/alpha", Path.ofString "/logs/gamma"] ∧
      Aligned config (listing.kept.filterMap Group.ofPath?) start result.1.state
        (effects (Setting.inMemory config) (Path.ofString "/data") start) result.1.trace report := by
  intro config verifier start result
  have hreport : handedOver result.2 = some result.1.report := by decide +kernel
  obtain ⟨listing, hlisting, haligned⟩ :=
    execute_aligned (MemoryTree.reachable_ofAdditions gapAdditions) hreport
  exact ⟨_, listing, hreport, hlisting, by decide +kernel, by decide +kernel, by decide +kernel,
    haligned⟩

end Batch

end BatchVerify
