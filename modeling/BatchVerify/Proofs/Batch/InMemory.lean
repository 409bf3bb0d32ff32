import BatchVerify.Proofs.Batch.Apart
import BatchVerify.Proofs.Tree.Invariant

/-!
# Runs over a tree in memory

A run only notes the directories that it makes, so what is in the tree stays as it is and the
sources of every group are known from the start (`MemoryTree.sources`). A run that gets through
has verified exactly these, in order (`Batch.outcomes_visitGroups`), and a scripted verifier was
asked once for each outcome (`Batch.Asked`).
-/

namespace BatchVerify

/-- What a run over a tree in memory with a scripted verifier depends on. -/
abbrev Setting.inMemory (config : Config) : Setting (MemoryTree × ScriptedVerifier) :=
  Setting.apart memoryTree scriptedVerifier config

namespace MemoryTree

/-- The sources of a group, in the order in which a run takes them. -/
def sources (tree : MemoryTree) (extension : String) (group : Group) : List Source :=
  (((tree.dirs.entries? group.path).getD []).filter (containsPath tree.files)).filterMap
    fun path => Source.matching? path extension

theorem map_path_sources (tree : MemoryTree) (extension : String) (group : Group) :
    (tree.sources extension group).map Source.path =
      ((tree.dirs.entries? group.path).getD []).filter fun path =>
        containsPath tree.files path && hasExtension path extension := by
  unfold sources
  rw [List.map_filterMap, List.filterMap_filter]
  simp only [Source.matching?_map_path]
  rw [← List.filterMap_eq_filter]
  congr 1
  funext path
  cases hfile : containsPath tree.files path <;> cases hext : hasExtension path extension <;>
    simp [Option.guard, hfile, hext]

theorem ensureDir_of_readOnly {tree : MemoryTree} (dir : Path) (h : tree.readOnly = true) :
    tree.ensureDir dir = (.error (.outputDirectory dir .refused), tree) := by
  rw [ensureDir, if_pos h]

theorem ensureDir_of_not_readOnly {tree : MemoryTree} (dir : Path) (h : ¬ tree.readOnly = true) :
    tree.ensureDir dir = (.ok (), { tree with created := tree.created ++ [dir] }) := by
  rw [ensureDir, if_neg h]

/-- The groups of a root, in the order in which a run visits them. -/
def groups (tree : MemoryTree) (root : Path) : List Group :=
  (((tree.dirs.entries? root).getD []).filter fun path => tree.dirs.contains path).filterMap
    Group.ofPath?

/-- A group is an entry that is a directory and has a name. -/
theorem mem_groups {tree : MemoryTree} {root : Path} {group : Group} :
    group ∈ tree.groups root ↔
      group.path ∈ (tree.dirs.entries? root).getD [] ∧
        tree.dirs.contains group.path = true ∧ group.path.name? = some group.name := by
  unfold groups Group.ofPath?
  simp only [List.mem_filterMap, List.mem_filter, Option.map_eq_some_iff]
  constructor
  · rintro ⟨path, ⟨hmem, hknown⟩, name, hname, rfl⟩
    exact ⟨hmem, hknown, hname⟩
  · rintro ⟨hmem, hknown, hname⟩
    exact ⟨group.path, ⟨hmem, hknown⟩, group.name, hname, rfl⟩

theorem contains_of_mem_groups {tree : MemoryTree} {root : Path} {group : Group}
    (h : group ∈ tree.groups root) : tree.dirs.contains group.path = true :=
  (mem_groups.mp h).2.1

/-- The listing of a known root is complete; the groups are what it keeps, as far as it is named. -/
theorem listGroups_of_contains {tree : MemoryTree} {root : Path}
    (h : tree.dirs.contains root = true) :
    memoryTree.listGroups root tree =
      .ok ⟨((tree.dirs.entries? root).getD []).filter fun path => tree.dirs.contains path, []⟩ := by
  obtain ⟨entries, hentries⟩ := Option.isSome_iff_exists.mp h
  show tree.listGroups root = _
  simp only [listGroups, list, hentries, Option.getD_some]

theorem SameContent.sources_eq {tree tree' : MemoryTree} (h : tree.SameContent tree')
    (extension : String) (group : Group) :
    tree.sources extension group = tree'.sources extension group := by
  unfold sources
  rw [h.1, h.2.1]

end MemoryTree

namespace Batch

/-! ## Any verifier -/

section

variable {τ : Type} {verifier : Verifier τ} {config : Config}

/-- No step changes what is in the tree. -/
theorem sameContent_step {run next : Run (MemoryTree × τ)} {tree : MemoryTree}
    (h : Step (Setting.apart memoryTree verifier config) run next)
    (hrun : run.state.1.SameContent tree) : next.state.1.SameContent tree := by
  cases h with
  | announce group =>
    rcases announce_cases (Setting.apart memoryTree verifier config) group run with
      ⟨cause, _, heq⟩ | ⟨_, heq⟩ <;> rw [heq] <;> exact hrun
  | openGroup group =>
    rcases state_openGroup (Setting.apart memoryTree verifier config) group run with h | h <;>
      rw [h]
    · exact hrun
    · have hmade := MemoryTree.sameContent_ensureDir (config.layout.outputDir group.name)
        run.state.1
      exact ⟨hmade.1.trans hrun.1, hmade.2.1.trans hrun.2.1, hmade.2.2.trans hrun.2.2⟩
  | verify group source => exact hrun

/-- The listing of a known group is complete and holds its sources. -/
theorem listFiles_apart (verifier : Verifier τ) (config : Config) {group : Group}
    {run : Run (MemoryTree × τ)} (h : run.state.1.dirs.contains group.path = true) :
    ∃ listing, (Setting.apart memoryTree verifier config).tree.listFiles group.path run.state =
        .ok listing ∧
      listing.skipped = [] ∧
      sourcesIn (Setting.apart memoryTree verifier config) listing =
        run.state.1.sources config.layout.sourceExtension group := by
  obtain ⟨entries, hentries⟩ := Option.isSome_iff_exists.mp h
  refine ⟨⟨entries.filter (containsPath run.state.1.files), []⟩, ?_, rfl, ?_⟩
  · show run.state.1.listFiles group.path = _
    simp only [MemoryTree.listFiles, MemoryTree.list, hentries]
  · show List.filterMap _ _ = _
    rw [MemoryTree.sources, hentries]
    rfl

/-- The output directory of a group, noted by the tree. -/
def noteDir (config : Config) (group : Group) (state : MemoryTree × τ) : MemoryTree × τ :=
  ({ state.1 with created := state.1.created ++ [config.layout.outputDir group.name] }, state.2)

/-- A known group opens with its sources, unless it has any and no directory can be made. -/
theorem openGroup_apart (verifier : Verifier τ) (config : Config) {group : Group}
    {run : Run (MemoryTree × τ)} (h : run.state.1.dirs.contains group.path = true) :
    openGroup (Setting.apart memoryTree verifier config) group run =
      let sources := run.state.1.sources config.layout.sourceExtension group
      let told := run.emit [.log (groupRecord group sources.length)]
      if sources = [] then (told, .ok [])
      else if run.state.1.readOnly then
        (told, .error (.outputDirectory (config.layout.outputDir group.name) .refused))
      else ({ told with state := noteDir config group run.state }, .ok sources) := by
  obtain ⟨listing, hlist, hskipped, hsources⟩ := listFiles_apart verifier config h
  have hevents : listingEvents (Setting.apart memoryTree verifier config) group listing =
      [.log (groupRecord group
        (run.state.1.sources config.layout.sourceExtension group).length)] := by
    rw [listingEvents, hsources, Listing.events, hskipped]
    rfl
  have hensure : (Setting.apart memoryTree verifier config).tree.ensureDir
      (config.layout.outputDir group.name) run.state =
      ((run.state.1.ensureDir (config.layout.outputDir group.name)).1,
        ((run.state.1.ensureDir (config.layout.outputDir group.name)).2, run.state.2)) := rfl
  dsimp only
  split_ifs with hnil hreadOnly
  · rw [openGroup_of_nil hlist (hsources.trans hnil), hevents]
  · rw [openGroup_of_ne_nil hlist (hsources ▸ hnil), hevents]
    show (_, _) = _
    rw [show (Setting.apart memoryTree verifier config).config = config from rfl, hensure,
      MemoryTree.ensureDir_of_readOnly _ hreadOnly]
    rfl
  · rw [openGroup_of_ne_nil hlist (hsources ▸ hnil), hevents]
    show (_, _) = _
    rw [show (Setting.apart memoryTree verifier config).config = config from rfl, hensure,
      MemoryTree.ensureDir_of_not_readOnly _ hreadOnly, hsources]
    rfl

/-- A group once its sources are listed. -/
def listed (config : Config) (group : Group) (run : Run (MemoryTree × τ)) : Run (MemoryTree × τ) :=
  { state := run.state
    report := run.report.recordGroup
    trace := run.trace ++ [.progress (progressLine group)] ++
      [.log (groupRecord group (run.state.1.sources config.layout.sourceExtension group).length)] }

/-- A known group is listed; if it has sources, its directory is noted and they are verified. -/
theorem visitGroup_apart (verifier : Verifier τ) (config : Config) {group : Group}
    {run : Run (MemoryTree × τ)} (h : run.state.1.dirs.contains group.path = true) :
    visitGroup (Setting.apart memoryTree verifier config) group run =
      let sources := run.state.1.sources config.layout.sourceExtension group
      if sources = [] then (listed config group run, none)
      else if run.state.1.readOnly then
        (listed config group run,
          some (.outputDirectory (config.layout.outputDir group.name) .refused))
      else verifySources (Setting.apart memoryTree verifier config) group sources
        { listed config group run with state := noteDir config group run.state } := by
  unfold visitGroup
  rw [announce_apart]
  dsimp only
  rw [openGroup_apart verifier config (by exact h)]
  dsimp only
  split_ifs <;> rfl

/-- Where no directory can be made, no source is verified. -/
theorem outcomes_visitGroups_of_readOnly {tree : MemoryTree} {groups : List Group}
    {run : Run (MemoryTree × τ)}
    (hknown : ∀ group ∈ groups, tree.dirs.contains group.path = true)
    (htree : run.state.1.SameContent tree) (h : tree.readOnly = true) :
    (visitGroups (Setting.apart memoryTree verifier config) groups run).1.report.outcomes =
      run.report.outcomes := by
  induction groups generalizing run with
  | nil => rfl
  | cons group groups ih =>
    have hvisit := visitGroup_apart verifier config
      (show run.state.1.dirs.contains group.path = true by
        rw [htree.1]; exact hknown group List.mem_cons_self)
    dsimp only at hvisit
    -- no directory can be made, so a group that has sources ends the run before the first one
    rw [htree.2.2, if_pos h] at hvisit
    split_ifs at hvisit with hnil
    · rw [visitGroups_cons_of_none hvisit]
      exact ih (fun g hg => hknown g (List.mem_cons_of_mem _ hg)) htree
    · rw [visitGroups_cons_of_some hvisit]
      rfl

/-- Where directories can be made, nothing but a source stops a run. -/
theorem visitGroups_stop_of_writable {tree : MemoryTree} {groups : List Group}
    {run stopped : Run (MemoryTree × τ)} {failure : Failure}
    (hknown : ∀ group ∈ groups, tree.dirs.contains group.path = true)
    (htree : run.state.1.SameContent tree) (h : ¬ tree.readOnly = true)
    (hstop : visitGroups (Setting.apart memoryTree verifier config) groups run =
      (stopped, some failure)) :
    ∃ group sources opened,
      verifySources (Setting.apart memoryTree verifier config) group sources opened =
        (stopped, some failure) := by
  induction groups generalizing run with
  | nil => cases hstop
  | cons group groups ih =>
    have hreaches := reaches_visitGroup (Setting.apart memoryTree verifier config) group run
    have hgroup := visitGroup_apart verifier config
      (show run.state.1.dirs.contains group.path = true by
        rw [htree.1]; exact hknown group List.mem_cons_self)
    dsimp only at hgroup
    -- with directories that can be made, the visit comes down to its sources
    rw [htree.2.2, if_neg h] at hgroup
    rcases hvisit : visitGroup (Setting.apart memoryTree verifier config) group run with
      ⟨visited, _ | cause⟩
    · rw [hvisit] at hreaches
      rw [visitGroups_cons_of_none hvisit] at hstop
      exact ih (fun g hg => hknown g (List.mem_cons_of_mem _ hg))
        (hreaches.keeps sameContent_step htree) hstop
    · rw [visitGroups_cons_of_some hvisit] at hstop
      rw [← hstop, ← hvisit, hgroup]
      split_ifs at hgroup ⊢ with hnil
      · rw [hvisit] at hgroup
        cases hgroup
      · exact ⟨_, _, _, rfl⟩

/-- A run over a known root visits its groups. -/
theorem execute_apart_of_contains (verifier : Verifier τ) (config : Config) {tree : MemoryTree}
    {root : Path} (h : tree.dirs.contains root = true) (state : τ) :
    execute (Setting.apart memoryTree verifier config) root (tree, state) =
      finish
        (visitGroups (Setting.apart memoryTree verifier config) (tree.groups root)
          { state := (tree, state) }) := by
  have hroot : (Setting.apart memoryTree verifier config).tree.checkRoot root (tree, state) =
      .ok () := by
    show tree.checkRoot root = _
    rw [MemoryTree.checkRoot, if_pos h]
  have hgroups : (Setting.apart memoryTree verifier config).tree.listGroups root (tree, state) =
      .ok ⟨((tree.dirs.entries? root).getD []).filter fun path => tree.dirs.contains path, []⟩ :=
    MemoryTree.listGroups_of_contains h
  simp only [execute, hroot, hgroups]
  rfl

/-- A run over an unknown root fails before it does anything. -/
theorem execute_apart_of_not_contains (verifier : Verifier τ) (config : Config)
    {tree : MemoryTree} {root : Path} (h : ¬ tree.dirs.contains root = true) (state : τ) :
    execute (Setting.apart memoryTree verifier config) root (tree, state) =
      ({ state := (tree, state) },
        .error (if containsPath tree.files root then .rootNotDirectory root
          else .rootMissing root)) := by
  have hroot : (Setting.apart memoryTree verifier config).tree.checkRoot root (tree, state) =
      .error (if containsPath tree.files root then .rootNotDirectory root
        else .rootMissing root) := by
    show tree.checkRoot root = _
    rw [MemoryTree.checkRoot, if_neg h]
    split_ifs <;> rfl
  simp only [execute, hroot]

end

/-! ## A scripted verifier -/

variable {config : Config}

/-- The verifier was asked once for each outcome, in order, and not at all besides. -/
def Asked (config : Config) (before : List Invocation)
    (run : Run (MemoryTree × ScriptedVerifier)) : Prop :=
  run.state.2.invocations =
    before ++ run.report.outcomes.map (Outcome.invocation config.verifier)

theorem asked_step {before : List Invocation} {run next : Run (MemoryTree × ScriptedVerifier)}
    (h : Step (Setting.inMemory config) run next) (hrun : Asked config before run) :
    Asked config before next := by
  cases h with
  | announce group => exact hrun
  | openGroup group =>
    unfold Asked
    rw [report_openGroup, ← hrun]
    rcases state_openGroup (Setting.inMemory config) group run with h | h <;> rw [h]
    rfl
  | verify group source =>
    unfold Asked at hrun ⊢
    rw [report_verifySource]
    show run.state.2.invocations ++ [_] = _
    rw [hrun, Report.record, List.map_append, ← List.append_assoc]
    rfl

/-- The outcomes of a group whose sources are all verified. -/
def outcomesOf (config : Config) (tree : MemoryTree) (verifier : ScriptedVerifier)
    (group : Group) : List Outcome :=
  (tree.sources config.layout.sourceExtension group).map fun source =>
    outcomeOf (Setting.inMemory config) group source (verifier.statusOf source.path)

theorem outcomes_visitGroup {tree : MemoryTree} {verifier : ScriptedVerifier} {group : Group}
    {run visited : Run (MemoryTree × ScriptedVerifier)}
    (hknown : tree.dirs.contains group.path = true) (htree : run.state.1.SameContent tree)
    (hscript : run.state.2.script = verifier.script)
    (h : visitGroup (Setting.inMemory config) group run = (visited, none)) :
    visited.report.outcomes = run.report.outcomes ++ outcomesOf config tree verifier group := by
  have hsources := htree.sources_eq config.layout.sourceExtension group
  have hanswers : run.state.2.statusOf = verifier.statusOf :=
    ScriptedVerifier.statusOf_congr hscript
  rw [visitGroup_apart scriptedVerifier config (by rw [htree.1]; exact hknown)] at h
  dsimp only at h
  rw [hsources] at h
  unfold outcomesOf
  split_ifs at h with hnil hreadOnly
  · cases h
    rw [hnil]
    simp [listed, Report.recordGroup]
  · cases h
  · rw [outcomes_verifySources h]
    show _ ++ List.map
      (fun source : Source => outcomeOf _ _ _ (run.state.2.statusOf source.path)) _ = _
    rw [hanswers]
    rfl

/-- A run that gets through has the outcomes of all sources of all groups, in order. -/
theorem outcomes_visitGroups {tree : MemoryTree} {verifier : ScriptedVerifier}
    {groups : List Group} {run visited : Run (MemoryTree × ScriptedVerifier)}
    (hknown : ∀ group ∈ groups, tree.dirs.contains group.path = true)
    (htree : run.state.1.SameContent tree) (hscript : run.state.2.script = verifier.script)
    (h : visitGroups (Setting.inMemory config) groups run = (visited, none)) :
    visited.report.outcomes =
      run.report.outcomes ++ groups.flatMap (outcomesOf config tree verifier) := by
  induction groups generalizing run with
  | nil =>
    cases h
    simp
  | cons group groups ih =>
    have hreaches := reaches_visitGroup (Setting.inMemory config) group run
    rcases hvisit : visitGroup (Setting.inMemory config) group run with ⟨first, _ | failure⟩
    · rw [hvisit] at hreaches
      rw [visitGroups_cons_of_none hvisit] at h
      have hfirst := outcomes_visitGroup (hknown group List.mem_cons_self) htree hscript hvisit
      -- the tree and the script are what they were, so the rest is as the hypothesis has it
      rw [ih (fun g hg => hknown g (List.mem_cons_of_mem _ hg))
          (hreaches.keeps sameContent_step htree)
          (hreaches.keeps (fun hstep hs => (script_step hstep).trans hs) hscript) h,
        hfirst, List.flatMap_cons, List.append_assoc]
    · rw [visitGroups_cons_of_some hvisit] at h
      cases h

/-- Two groups with a source each, a file of another kind and a file in no group. -/
def dataAdditions : List Addition :=
  [ .directory (Path.ofString "/data"),
    .file (Path.ofString "/data/alpha/a.bpl"),
    .file (Path.ofString "/data/alpha/b.txt"),
    .file (Path.ofString "/data/beta/c.bpl"),
    .file (Path.ofString "/data/notes.bpl") ]

end Batch

end BatchVerify
