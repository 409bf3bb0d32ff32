import BatchVerify.Proofs.Batch.Order
import BatchVerify.Proofs.Tree.Twin

/-!
# Runs over a tree in memory and over its twin on a disk

A run over a tree in memory only notes the directories that it asks for; on a disk they are made,
maybe among the groups that are still to be visited. Over twins both runs visit the same groups and
verify the same sources, so they go on in step until a directory cannot be made
(`Batch.visitGroups_twin`), and a run for which all of them can be made has the result, the progress
and the invocations of the run in memory (`Batch.execute_apart_twin`).
-/

namespace BatchVerify

variable {σ τ : Type}

/-- The line of progress that an event is, if it is one. -/
def Event.line? : Event → Option String
  | .progress line => some line
  | _ => none

/-- A tree in which there is nothing to find, and nothing to be made. -/
def SourceTree.bare : SourceTree σ where
  checkRoot _ _ := .ok ()
  listGroups _ _ := .ok ⟨[], []⟩
  listFiles _ _ := .ok ⟨[], []⟩
  ensureDir _ state := (.ok (), state)

theorem MemoryTree.SameContent.listFiles_eq {tree tree' : MemoryTree} (h : tree.SameContent tree')
    (dir : Path) : tree.listFiles dir = tree'.listFiles dir := by
  unfold listFiles list
  rw [h.1, h.2.1]

/-- A directory is made, or the failure tells that it cannot be. -/
theorem Disk.ensureDir_cases (disk : Disk) (dir : Path) :
    (∃ made, disk.ensureDir dir = (.ok (), made) ∧ disk.Grows made) ∨
      ∃ made cause, disk.ensureDir dir = (.error (.outputDirectory dir cause), made) := by
  have hgrows := disk.grows_makeDirectories dir
  unfold ensureDir
  rcases hmade : disk.makeDirectories dir with ⟨cause | ⟨⟩, made⟩ <;> rw [hmade] at hgrows
  · exact Or.inr ⟨made, cause, rfl⟩
  · exact Or.inl ⟨made, rfl, hgrows⟩

/-- A tree in memory with what is in `tree`, and a disk that has grown from `disk`, each beside the
same state of a verifier. -/
def TwinStates (tree : MemoryTree) (disk : Disk) (left : MemoryTree × τ) (right : Disk × τ) : Prop :=
  left.1.SameContent tree ∧ disk.Grows right.1 ∧ left.2 = right.2

namespace Batch

variable {additions : List Addition} {tree : MemoryTree} {disk : Disk} {verifier : Verifier τ}
  {config : Config} {run : Run (MemoryTree × τ)} {other : Run (Disk × τ)} {group : Group}

theorem progressLines_eq (trace : List Event) : progressLines trace = trace.filterMap Event.line? := by
  unfold progressLines
  refine List.filterMap_congr fun event _ => ?_
  cases event <;> rfl

/-- What is told about a listing is no progress. -/
theorem lines_listingEvents (setting : Setting σ) (group : Group) (listing : Listing) :
    (listingEvents setting group listing).filterMap Event.line? = [] := by
  refine List.filterMap_eq_nil_iff.mpr fun event hmem => ?_
  rcases List.mem_append.mp hmem with hmem | hmem
  · obtain ⟨skipped, -, rfl⟩ := List.mem_map.mp hmem
    rfl
  · obtain rfl := List.mem_singleton.mp hmem
    rfl

/-- The tree does not matter while sources are verified. -/
theorem verifySources_bare (setting : Setting σ) (group : Group) (sources : List Source)
    (run : Run σ) :
    verifySources { setting with tree := .bare } group sources run =
      verifySources setting group sources run := by
  induction sources generalizing run with
  | nil => rfl
  | cons source sources ih =>
    simp only [verifySources, ih]
    rfl

/-- But for their trees, both settings do the same in related states. -/
theorem bare_inStep (tree : MemoryTree) (disk : Disk) (verifier : Verifier τ) (config : Config) :
    Setting.InStep (TwinStates tree disk) Event.line?
      { Setting.apart memoryTree verifier config with tree := .bare }
      { Setting.apart diskTree verifier config with tree := .bare } where
  config := rfl
  checkRoot _ _ := rfl
  listGroups _ _ := rfl
  listFiles _ _ := rfl
  ensureDir _ hstate := ⟨rfl, hstate⟩
  verify := by
    rintro ⟨left, state⟩ ⟨right, _⟩ invocation ⟨hleft, hright, rfl⟩
    exact ⟨rfl, hleft, hright, rfl⟩
  tell _ hstate := ⟨rfl, hstate⟩

theorem announce_twin (verifier : Verifier τ) (config : Config)
    (hrun : run.InStep (TwinStates tree disk) Event.line? other) (group : Group) :
    ∃ announced announced', announced.InStep (TwinStates tree disk) Event.line? announced' ∧
      announce (Setting.apart memoryTree verifier config) group run = (announced, none) ∧
      announce (Setting.apart diskTree verifier config) group other = (announced', none) :=
  ⟨_, _, (announce_inStep (bare_inStep tree disk verifier config) hrun group).1, rfl, rfl⟩

theorem verifySources_twin (hrun : run.InStep (TwinStates tree disk) Event.line? other)
    (group : Group) (sources : List Source) :
    let left := verifySources (Setting.apart memoryTree verifier config) group sources run
    let right := verifySources (Setting.apart diskTree verifier config) group sources other
    left.1.InStep (TwinStates tree disk) Event.line? right.1 ∧ left.2 = right.2 := by
  have hstep := verifySources_inStep (bare_inStep tree disk verifier config) hrun group sources
  rwa [verifySources_bare, verifySources_bare] at hstep

/-- A group opens with the same sources, unless its directory cannot be made on the disk. -/
theorem openGroup_twin (h : Twins additions tree disk) (hwritable : tree.readOnly = false)
    (hgroup : .directory group.path ∈ additions)
    (hrun : run.InStep (TwinStates tree disk) Event.line? other) :
    (∃ opened dir cause, openGroup (Setting.apart diskTree verifier config) group other =
      (opened, .error (.outputDirectory dir cause))) ∨
    ∃ opened opened' sources, opened.InStep (TwinStates tree disk) Event.line? opened' ∧
      openGroup (Setting.apart memoryTree verifier config) group run = (opened, .ok sources) ∧
      openGroup (Setting.apart diskTree verifier config) group other = (opened', .ok sources) := by
  obtain ⟨hsame, hgrows, hstate⟩ := hrun.state
  obtain ⟨listing, hlist', hlist⟩ := h.listFiles_grown hgrows hgroup
  rw [← hsame.listFiles_eq] at hlist
  have htold : (run.emit (listingEvents (Setting.apart memoryTree verifier config) group
      ⟨listing.kept, []⟩)).InStep (TwinStates tree disk) Event.line?
      (other.emit (listingEvents (Setting.apart diskTree verifier config) group listing)) := by
    refine hrun.emit ?_
    rw [lines_listingEvents, lines_listingEvents]
  by_cases hnil : sourcesIn (Setting.apart diskTree verifier config) listing = []
  · exact Or.inr ⟨_, _, [], htold, openGroup_of_nil hlist hnil, openGroup_of_nil hlist' hnil⟩
  · have hnoted := MemoryTree.ensureDir_of_not_readOnly (config.layout.outputDir group.name)
      (show ¬ run.state.1.readOnly = true by simp [hsame.2.2, hwritable])
    rcases other.state.1.ensureDir_cases (config.layout.outputDir group.name) with
      ⟨made, hmade, hgrown⟩ | ⟨made, cause, hmade⟩
    · refine Or.inr ⟨_, _, _, ?_, openGroup_apart_of_ne_nil memoryTree hlist hnil hnoted,
        openGroup_apart_of_ne_nil diskTree hlist' hnil hmade⟩
      exact ⟨⟨hsame, hgrows.trans hgrown, hstate⟩, htold.report, htold.trace⟩
    · exact Or.inl ⟨_, _, cause, openGroup_apart_of_ne_nil diskTree hlist' hnil hmade⟩

/-- Unless a directory cannot be made on the disk, a group is visited alike. -/
theorem visitGroup_twin (h : Twins additions tree disk) (hwritable : tree.readOnly = false)
    (hgroup : .directory group.path ∈ additions)
    (hrun : run.InStep (TwinStates tree disk) Event.line? other)
    (hmade : ∀ dir cause, (visitGroup (Setting.apart diskTree verifier config) group other).2 ≠
      some (.outputDirectory dir cause)) :
    let left := visitGroup (Setting.apart memoryTree verifier config) group run
    let right := visitGroup (Setting.apart diskTree verifier config) group other
    left.1.InStep (TwinStates tree disk) Event.line? right.1 ∧ left.2 = right.2 := by
  obtain ⟨announced, announced', hannounced, hannounce, hannounce'⟩ :=
    announce_twin verifier config hrun group
  rcases openGroup_twin h hwritable hgroup hannounced with
    ⟨stopped, dir, cause, hopen⟩ | ⟨opened, opened', sources, hopened, hopen, hopen'⟩
  · refine absurd ?_ (hmade dir cause)
    rw [visitGroup_of_unopened _ hannounce' hopen]
  · dsimp only
    rw [visitGroup_of_opened _ hannounce hopen, visitGroup_of_opened _ hannounce' hopen']
    exact verifySources_twin hopened group sources

theorem visitGroups_twin (h : Twins additions tree disk) (hwritable : tree.readOnly = false)
    {groups : List Group} (hgroups : ∀ group ∈ groups, .directory group.path ∈ additions)
    (hrun : run.InStep (TwinStates tree disk) Event.line? other)
    (hmade : ∀ dir cause, (visitGroups (Setting.apart diskTree verifier config) groups other).2 ≠
      some (.outputDirectory dir cause)) :
    let left := visitGroups (Setting.apart memoryTree verifier config) groups run
    let right := visitGroups (Setting.apart diskTree verifier config) groups other
    left.1.InStep (TwinStates tree disk) Event.line? right.1 ∧ left.2 = right.2 := by
  induction groups generalizing run other with
  | nil => exact ⟨hrun, rfl⟩
  | cons group groups ih =>
    obtain ⟨hgroup, hrest⟩ := List.forall_mem_cons.mp hgroups
    -- a failure to make a directory during this visit would be the end of the run
    have hmade' (dir : Path) (cause : SystemError) :
        (visitGroup (Setting.apart diskTree verifier config) group other).2 ≠
          some (.outputDirectory dir cause) := by
      intro hstop
      refine hmade dir cause ?_
      rw [visitGroups_cons_of_some (Prod.ext rfl hstop)]
    obtain ⟨hvisited, hstop⟩ := visitGroup_twin h hwritable hgroup hrun hmade'
    rcases hvisit : visitGroup (Setting.apart memoryTree verifier config) group run with
      ⟨visited, _ | failure⟩ <;>
      rcases hvisit' : visitGroup (Setting.apart diskTree verifier config) group other with
        ⟨visited', _ | failure'⟩ <;>
      rw [hvisit, hvisit'] at hvisited hstop <;> cases hstop
    · dsimp only
      rw [visitGroups_cons_of_none hvisit, visitGroups_cons_of_none hvisit']
      refine ih hrest hvisited fun dir cause => ?_
      have hmade := hmade dir cause
      rwa [visitGroups_cons_of_none hvisit'] at hmade
    · dsimp only
      rw [visitGroups_cons_of_some hvisit, visitGroups_cons_of_some hvisit']
      exact ⟨hvisited, rfl⟩

/-- Over twins, runs go on in step to the same result, unless a directory cannot be made on the
disk. -/
theorem execute_apart_twin (h : Twins additions tree disk) (hwritable : tree.readOnly = false)
    {root : Path} (hroot : .directory root ∈ additions) {state : τ}
    (hmade : ∀ dir cause, (execute (Setting.apart diskTree verifier config) root (disk, state)).2 ≠
      .error (.outputDirectory dir cause)) :
    let left := execute (Setting.apart memoryTree verifier config) root (tree, state)
    let right := execute (Setting.apart diskTree verifier config) root (disk, state)
    left.1.InStep (TwinStates tree disk) Event.line? right.1 ∧ left.2 = right.2 := by
  have hchecked : memoryTree.checkRoot root tree = .ok () :=
    h.memory.checkRoot_eq h.canonical (contentAt?_eq_directory_iff.mpr hroot)
  have hchecked' : diskTree.checkRoot root disk = .ok () :=
    (h.checkRoot_eq hroot).symm.trans hchecked
  obtain ⟨kept, hlist, hcontents⟩ : ∃ kept, memoryTree.listGroups root tree = .ok ⟨kept, []⟩ ∧
      root.Contents additions .directory kept := h.memory.listGroups_contents h.canonical hroot
  have hlist' : diskTree.listGroups root disk = .ok ⟨kept, []⟩ :=
    (h.listGroups_eq hroot).symm.trans hlist
  have hgroups : ∀ group ∈ kept.filterMap Group.ofPath?, .directory group.path ∈ additions := by
    intro group hmem
    obtain ⟨path, hpath, hgroup⟩ := List.mem_filterMap.mp hmem
    obtain ⟨rfl, -⟩ := Group.ofPath?_eq_some_iff.mp hgroup
    exact contentAt?_eq_directory_iff.mp (hcontents.mem.mp hpath).2
  dsimp only
  rw [execute_apart_of_listed diskTree hchecked' hlist'] at hmade ⊢
  rw [execute_apart_of_listed memoryTree hchecked hlist]
  have hstart : Run.InStep (TwinStates tree disk) Event.line?
      { state := (tree, state), trace := Listing.events ⟨kept, []⟩ }
      { state := (disk, state), trace := Listing.events ⟨kept, []⟩ } :=
    ⟨⟨⟨rfl, rfl, rfl⟩, .refl disk, rfl⟩, rfl, rfl⟩
  obtain ⟨hvisited, hstop⟩ := visitGroups_twin h hwritable hgroups hstart fun dir cause hstop =>
    hmade dir cause (by rw [← Prod.eta (visitGroups _ _ _), hstop, finish])
  exact finish_inStep hvisited hstop

/-- After canonical additions, a tree in memory and a disk that was fresh answer alike for all that was
added. Runs over them, with a verifier that answers by a script, have the same result, progress and
invocations, if the tree in memory allows directories to be made and none fails to be made on the
disk. -/
theorem execute_twin {additions : List Addition} {tree : MemoryTree} {start : Disk}
    (hcanonical : Canonical additions) (hreachable : MemoryTree.Reachable additions tree)
    (hstart : start.Fresh) :
    ∃ disk, additions.foldlM Disk.add start = .ok disk ∧
      (∀ addition ∈ additions,
        memoryTree.checkRoot addition.path tree = diskTree.checkRoot addition.path disk) ∧
      (∀ dir, .directory dir ∈ additions →
        memoryTree.listGroups dir tree = diskTree.listGroups dir disk ∧
        memoryTree.listFiles dir tree = diskTree.listFiles dir disk) ∧
      ∀ (config : Config) (verifier : ScriptedVerifier) (root : Path),
        .directory root ∈ additions → tree.readOnly = false →
        let inMemory := execute (Setting.inMemory config) root (tree, verifier)
        let onDisk := execute (Setting.apart diskTree scriptedVerifier config) root (disk, verifier)
        (∀ dir cause, onDisk.2 ≠ .error (.outputDirectory dir cause)) →
        inMemory.2 = onDisk.2 ∧
          progressText inMemory.1.trace = progressText onDisk.1.trace ∧
          inMemory.1.state.2.invocations = onDisk.1.state.2.invocations := by
  obtain ⟨disk, hdisk, hmirror⟩ := Disk.exists_mirror hcanonical hstart
  have htwins : Twins additions tree disk := ⟨hcanonical, hreachable, hmirror⟩
  refine ⟨disk, hdisk, fun addition => htwins.checkRoot_eq,
    fun dir hdir => ⟨htwins.listGroups_eq hdir, htwins.listFiles_eq hdir⟩, ?_⟩
  intro config verifier root hroot hwritable inMemory onDisk hmade
  obtain ⟨hstep, hresult⟩ := execute_apart_twin htwins hwritable hroot hmade
  refine ⟨hresult, ?_, congrArg ScriptedVerifier.invocations hstep.state.2.2⟩
  unfold progressText
  rw [progressLines_eq, progressLines_eq, hstep.trace]

/-- Two groups, a directory that is added twice, and files of other kinds. -/
def twinAdditions : List Addition :=
  [ .directory (Path.ofString "data"),
    .directory (Path.ofString "data/alpha"),
    .file (Path.ofString "data/alpha/a.bpl"),
    .directory (Path.ofString "data/beta"),
    .directory (Path.ofString "data/alpha"),
    .file (Path.ofString "data/beta/b.bpl"),
    .file (Path.ofString "data/beta/b.txt"),
    .file (Path.ofString "notes.bpl") ]

/-- A disk with an empty working directory. -/
def freshDisk : Disk where
  nodes := [([Utf8.encode "w"], .directory)]
  workDir := [Utf8.encode "w"]

/-- The output directory of the first group is made in the second one, before that is visited. -/
theorem execute_twin_nested :
    let config : Config := { layout := { outputRoot := Path.ofString "data/beta" } }
    let verifier : ScriptedVerifier :=
      { script := [(Path.ofString "data/alpha/a.bpl", .failed (some 1) none)] }
    let tree := MemoryTree.ofAdditions twinAdditions
    Canonical twinAdditions ∧ freshDisk.Fresh ∧
    ∃ disk, twinAdditions.foldlM Disk.add freshDisk = .ok disk ∧
      memoryTree.checkRoot (Path.ofString "notes.bpl") tree =
        diskTree.checkRoot (Path.ofString "notes.bpl") disk ∧
      memoryTree.listFiles (Path.ofString "data/beta") tree =
        diskTree.listFiles (Path.ofString "data/beta") disk ∧
      let inMemory := execute (Setting.inMemory config) (Path.ofString "data") (tree, verifier)
      let onDisk := execute (Setting.apart diskTree scriptedVerifier config) (Path.ofString "data")
        (disk, verifier)
      onDisk.2 = .ok onDisk.1.report ∧ onDisk.1.report.outcomes.length = 2 ∧
        onDisk.1.state.1.lookUp (Path.ofString "data/beta/alpha") = .ok .directory ∧
        inMemory.2 = onDisk.2 ∧
        progressText inMemory.1.trace = progressText onDisk.1.trace ∧
        inMemory.1.state.2.invocations = onDisk.1.state.2.invocations := by
  intro config verifier tree
  have hcanonical : Canonical twinAdditions := by decide +kernel
  have hfresh : freshDisk.Fresh := ⟨by decide +kernel, by decide +kernel⟩
  obtain ⟨disk, hdisk, hchecked, hlisted, hran⟩ :=
    execute_twin hcanonical (MemoryTree.reachable_ofAdditions twinAdditions) hfresh
  have hrun : (twinAdditions.foldlM Disk.add freshDisk).toOption.any (fun disk =>
      let onDisk := execute (Setting.apart diskTree scriptedVerifier config) (Path.ofString "data")
        (disk, verifier)
      decide (onDisk.2 = .ok onDisk.1.report ∧ onDisk.1.report.outcomes.length = 2 ∧
        onDisk.1.state.1.lookUp (Path.ofString "data/beta/alpha") = .ok .directory)) = true := by
    -- merging does not evaluate in the kernel, inserting does
    simp only [config, verifier, Setting.apart, sideBySide, SourceTree.within, diskTree,
      Disk.listGroups, Disk.listFiles, Disk.list, Disk.sortedNames, Disk.mergeSort_nameLe]
    decide +kernel
  rw [hdisk] at hrun
  obtain ⟨hresult, hlength, hmade⟩ := of_decide_eq_true hrun
  refine ⟨hcanonical, hfresh, disk, hdisk,
    hchecked (.file (Path.ofString "notes.bpl")) (by decide +kernel),
    (hlisted (Path.ofString "data/beta") (by decide +kernel)).2, hresult, hlength, hmade, ?_⟩
  refine hran config verifier (Path.ofString "data") (by decide +kernel) (by decide +kernel) ?_
  intro dir cause herror
  rw [hresult] at herror
  cases herror

end Batch

end BatchVerify
