import BatchVerify.Proofs.Batch.Course
import BatchVerify.Proofs.Batch.InMemory

/-!
# How a run over a tree in memory ends

A run over a tree in memory ends in one of five ways, and what is in the tree, in the script and in
the configuration tells which (`Batch.execute_classified`). A root that is no directory comes before
all else; a directory that cannot be made comes before any verifier; only then do the sources decide.
-/

namespace BatchVerify.Batch

variable {config : Config} {tree : MemoryTree} {verifier : ScriptedVerifier} {root : Path}

/-- A group has something to verify. -/
def Busy (config : Config) (tree : MemoryTree) (group : Group) : Prop :=
  tree.sources config.layout.sourceExtension group ≠ []

instance (config : Config) (tree : MemoryTree) : DecidablePred (Busy config tree) :=
  fun _ => inferInstanceAs (Decidable (_ ≠ _))

/-- A directory has to be made for a group, and cannot be. -/
def Refused (config : Config) (tree : MemoryTree) (root : Path) : Prop :=
  tree.readOnly = true ∧ ∃ group ∈ tree.groups root, Busy config tree group

/-- The script has a source of a group fail. -/
def Fails (config : Config) (tree : MemoryTree) (verifier : ScriptedVerifier) (group : Group) :
    Prop :=
  ∃ source ∈ tree.sources config.layout.sourceExtension group, ∃ key status,
    verifier.script.find? (fun entry => entry.1.Same source.path) = some (key, status) ∧
      status.isSuccess = false

/-- A failure that ends the run is in the script. -/
def Aborts (config : Config) (tree : MemoryTree) (verifier : ScriptedVerifier) (root : Path) : Prop :=
  config.run.onError = .abort ∧ ∃ group ∈ tree.groups root, Fails config tree verifier group

/-! ## Sources -/

/-- A source does not succeed just when the script says so. -/
theorem isSuccess_statusOf_eq_false_iff {source : Path} :
    (verifier.statusOf source).isSuccess = false ↔
      ∃ key status, verifier.script.find? (fun entry => entry.1.Same source) = some (key, status) ∧
        status.isSuccess = false := by
  unfold ScriptedVerifier.statusOf
  cases verifier.script.find? fun entry => entry.1.Same source with
  | none => simp [Status.isSuccess]
  | some entry =>
    obtain ⟨key, status⟩ := entry
    simp

/-! ## Groups where no directory can be made -/

/-- A group without sources is announced and left as it is. -/
theorem visitGroup_of_idle {group : Group} {run : Run (MemoryTree × ScriptedVerifier)}
    (hknown : tree.dirs.contains group.path = true) (htree : run.state.1.SameContent tree)
    (hidle : ¬ Busy config tree group) :
    visitGroup (Setting.inMemory config) group run = (listed config group run, none) := by
  rw [visitGroup_apart scriptedVerifier config (by rw [htree.1]; exact hknown)]
  dsimp only
  rw [htree.sources_eq, if_pos (not_not.mp hidle)]

theorem progressLines_listed (config : Config) (group : Group)
    (run : Run (MemoryTree × ScriptedVerifier)) :
    progressLines (listed config group run).trace =
      progressLines run.trace ++ [progressLine group] := by
  unfold listed
  rw [progressLines_append, progressLines_append, List.append_assoc]
  rfl

/-- Groups without sources are announced one after the other, and nothing else happens. -/
theorem visitGroups_of_idle {before after : List Group}
    {run : Run (MemoryTree × ScriptedVerifier)}
    (hknown : ∀ group ∈ before, tree.dirs.contains group.path = true)
    (htree : run.state.1.SameContent tree) (hidle : ∀ group ∈ before, ¬ Busy config tree group) :
    ∃ announced : Run (MemoryTree × ScriptedVerifier),
      visitGroups (Setting.inMemory config) (before ++ after) run =
        visitGroups (Setting.inMemory config) after announced ∧
      announced.state = run.state ∧
      progressLines announced.trace = progressLines run.trace ++ before.map progressLine := by
  induction before generalizing run with
  | nil => exact ⟨run, rfl, rfl, (List.append_nil _).symm⟩
  | cons group before ih =>
    obtain ⟨hgroup, hknown⟩ := List.forall_mem_cons.mp hknown
    obtain ⟨hfirst, hidle⟩ := List.forall_mem_cons.mp hidle
    have hvisit := visitGroup_of_idle hgroup htree hfirst
    obtain ⟨announced, heq, hstate, hprogress⟩ :=
      @ih (listed config group run) hknown htree hidle
    refine ⟨announced, ?_, hstate, ?_⟩
    · rw [List.cons_append, visitGroups_cons_of_none hvisit, heq]
    · rw [hprogress, progressLines_listed, List.append_assoc]
      rfl

/-- The first group with sources ends a run in which no directory can be made. -/
theorem visitGroups_of_refused {before after : List Group} {group : Group}
    {run : Run (MemoryTree × ScriptedVerifier)}
    (hknown : ∀ g ∈ before ++ group :: after, tree.dirs.contains g.path = true)
    (htree : run.state.1.SameContent tree) (hreadOnly : tree.readOnly = true)
    (hidle : ∀ g ∈ before, ¬ Busy config tree g) (hbusy : Busy config tree group) :
    ∃ stopped : Run (MemoryTree × ScriptedVerifier),
      visitGroups (Setting.inMemory config) (before ++ group :: after) run =
        (stopped, some (.outputDirectory (config.layout.outputDir group.name) .refused)) ∧
      stopped.state = run.state ∧
      progressLines stopped.trace =
        progressLines run.trace ++ (before ++ [group]).map progressLine := by
  obtain ⟨announced, heq, hstate, hprogress⟩ := @visitGroups_of_idle config tree before
    (group :: after) run (fun g hg => hknown g (List.mem_append_left _ hg)) htree hidle
  have hgroup : announced.state.1.dirs.contains group.path = true := by
    rw [hstate, htree.1]
    exact hknown group (List.mem_append_right _ List.mem_cons_self)
  have hvisit := visitGroup_apart scriptedVerifier config hgroup
  dsimp only at hvisit
  rw [hstate, htree.sources_eq, if_neg hbusy, htree.2.2, if_pos hreadOnly] at hvisit
  refine ⟨listed config group announced, ?_, hstate, ?_⟩
  · rw [heq, visitGroups_cons_of_some hvisit]
  · rw [progressLines_listed, hprogress, List.map_append, List.append_assoc]
    rfl

/-! ## Groups where directories can be made -/

theorem fails_iff {group : Group} :
    Fails config tree verifier group ↔
      ¬ ∀ source ∈ tree.sources config.layout.sourceExtension group,
        (verifier.statusOf source.path).isSuccess = true := by
  unfold Fails
  simp only [← isSuccess_statusOf_eq_false_iff, not_forall, Bool.not_eq_true, exists_prop]

theorem visitGroup_eq_none_iff {group : Group} {run : Run (MemoryTree × ScriptedVerifier)}
    (hknown : tree.dirs.contains group.path = true) (htree : run.state.1.SameContent tree)
    (hscript : run.state.2.script = verifier.script) (hwritable : ¬ tree.readOnly = true) :
    (visitGroup (Setting.inMemory config) group run).2 = none ↔
      config.run.onError = .keepGoing ∨ ¬ Fails config tree verifier group := by
  rw [visitGroup_apart scriptedVerifier config (by rw [htree.1]; exact hknown), fails_iff, not_not]
  dsimp only
  rw [htree.sources_eq, htree.2.2, if_neg hwritable]
  split_ifs with hnil
  · simp [hnil]
  · exact verifySources_eq_none_iff hscript

/-- Where directories can be made, a run gets through just when it keeps going or nothing fails. -/
theorem visitGroups_eq_none_iff {groups : List Group} {run : Run (MemoryTree × ScriptedVerifier)}
    (hknown : ∀ group ∈ groups, tree.dirs.contains group.path = true)
    (htree : run.state.1.SameContent tree) (hscript : run.state.2.script = verifier.script)
    (hwritable : ¬ tree.readOnly = true) :
    (visitGroups (Setting.inMemory config) groups run).2 = none ↔
      config.run.onError = .keepGoing ∨ ∀ group ∈ groups, ¬ Fails config tree verifier group := by
  induction groups generalizing run with
  | nil => simp [visitGroups]
  | cons group groups ih =>
    obtain ⟨hgroup, hknown⟩ := List.forall_mem_cons.mp hknown
    have hfirst := @visitGroup_eq_none_iff config tree verifier group run hgroup htree hscript hwritable
    have hreaches := reaches_visitGroup (Setting.inMemory config) group run
    rw [List.forall_mem_cons]
    rcases hvisit : visitGroup (Setting.inMemory config) group run with ⟨visited, _ | failure⟩
    · rw [hvisit] at hfirst hreaches
      rw [visitGroups_cons_of_none hvisit, ih hknown (hreaches.keeps sameContent_step htree)
        (hreaches.keeps (fun hstep h => (script_step hstep).trans h) hscript)]
      have hquiet := hfirst.mp rfl
      tauto
    · rw [hvisit] at hfirst
      rw [visitGroups_cons_of_some hvisit]
      have hstops : ¬ (config.run.onError = .keepGoing ∨ ¬ Fails config tree verifier group) :=
        fun h => by cases hfirst.mpr h
      simp only [reduceCtorEq, false_iff]
      tauto

/-! ## The five endings -/

/-- The ways in which a run ends, each with what leads to it and what it leaves behind. -/
inductive Ending (config : Config) (tree : MemoryTree) (verifier : ScriptedVerifier) (root : Path) :
    Run (MemoryTree × ScriptedVerifier) × Except Failure Report → Prop
  | rootNotDirectory (unknown : ¬ tree.dirs.contains root = true)
    (file : containsPath tree.files root = true) :
    Ending config tree verifier root ({ state := (tree, verifier) }, .error (.rootNotDirectory root))
  | rootMissing (unknown : ¬ tree.dirs.contains root = true)
    (noFile : ¬ containsPath tree.files root = true) :
    Ending config tree verifier root ({ state := (tree, verifier) }, .error (.rootMissing root))
  | outputDirectory (known : tree.dirs.contains root = true) (readOnly : tree.readOnly = true)
    {before after : List Group} {group : Group}
    (groups : tree.groups root = before ++ group :: after)
    (idle : ∀ g ∈ before, ¬ Busy config tree g) (busy : Busy config tree group)
    {run : Run (MemoryTree × ScriptedVerifier)} (state : run.state = (tree, verifier))
    (progress : progressLines run.trace = (before ++ [group]).map progressLine) :
    Ending config tree verifier root
      (run, .error (.outputDirectory (config.layout.outputDir group.name) .refused))
  | verifierFailed (known : tree.dirs.contains root = true) (makes : ¬ Refused config tree root)
    (aborts : Aborts config tree verifier root) (run : Run (MemoryTree × ScriptedVerifier))
    (source : Path) (details : String) (report : Report) :
    Ending config tree verifier root (run, .error (.verifier source details report))
  | finished (known : tree.dirs.contains root = true) (makes : ¬ Refused config tree root)
    (quiet : ¬ Aborts config tree verifier root) (run : Run (MemoryTree × ScriptedVerifier))
    (report : Report) : Ending config tree verifier root (run, .ok report)

theorem not_aborts_of_idle (h : ∀ group ∈ tree.groups root, ¬ Busy config tree group) :
    ¬ Aborts config tree verifier root := by
  rintro ⟨-, group, hgroup, source, hsource, -⟩
  exact h group hgroup (List.ne_nil_of_mem hsource)

/-- Where no directory can be made, the groups are visited up to the first one that needs it. -/
theorem visitGroups_ending_of_readOnly (hroot : tree.dirs.contains root = true)
    (hreadOnly : tree.readOnly = true) :
    Ending config tree verifier root
      (finish (visitGroups (Setting.inMemory config) (tree.groups root)
        { state := (tree, verifier) })) := by
  have hknown : ∀ group ∈ tree.groups root, tree.dirs.contains group.path = true :=
    fun _ => MemoryTree.contains_of_mem_groups
  cases hfirst : (tree.groups root).find? fun group => Busy config tree group with
  | none =>
    have hidle : ∀ group ∈ tree.groups root, ¬ Busy config tree group := by
      simpa using List.find?_eq_none.mp hfirst
    obtain ⟨announced, heq, -, -⟩ := @visitGroups_of_idle config tree (tree.groups root) []
      { state := (tree, verifier) } hknown ⟨rfl, rfl, rfl⟩ hidle
    rw [List.append_nil] at heq
    rw [heq]
    refine .finished hroot ?_ (not_aborts_of_idle hidle) _ _
    rintro ⟨-, group, hgroup, hbusy⟩
    exact hidle group hgroup hbusy
  | some group =>
    obtain ⟨hbusy, before, after, hgroups, hidle⟩ := List.find?_eq_some_iff_append.mp hfirst
    obtain ⟨stopped, heq, hstate, hprogress⟩ := @visitGroups_of_refused config tree before after
      group { state := (tree, verifier) } (hgroups ▸ hknown) ⟨rfl, rfl, rfl⟩ hreadOnly
      (by simpa using hidle) (of_decide_eq_true hbusy)
    rw [hgroups, heq]
    exact .outputDirectory hroot hreadOnly hgroups (by simpa using hidle) (of_decide_eq_true hbusy)
      hstate hprogress

/-- Where directories can be made, nothing but a source ends a visit of the groups early. -/
theorem visitGroups_ending_of_writable (hroot : tree.dirs.contains root = true)
    (hwritable : ¬ tree.readOnly = true) :
    Ending config tree verifier root
      (finish (visitGroups (Setting.inMemory config) (tree.groups root)
        { state := (tree, verifier) })) := by
  have hknown : ∀ group ∈ tree.groups root, tree.dirs.contains group.path = true :=
    fun _ => MemoryTree.contains_of_mem_groups
  have hmakes : ¬ Refused config tree root := fun h => hwritable h.1
  have hnone := @visitGroups_eq_none_iff config tree verifier (tree.groups root)
    { state := (tree, verifier) } hknown ⟨rfl, rfl, rfl⟩ rfl hwritable
  rcases hvisit : visitGroups (Setting.inMemory config) (tree.groups root)
      { state := (tree, verifier) } with ⟨visited, _ | failure⟩
  · rw [hvisit] at hnone
    refine .finished hroot hmakes ?_ _ _
    rintro ⟨habort, group, hgroup, hfails⟩
    rcases hnone.mp rfl with hkeep | hquiet
    · cases habort.symm.trans hkeep
    · exact hquiet group hgroup hfails
  · rw [hvisit] at hnone
    obtain ⟨group, sources, opened, hstop⟩ :=
      visitGroups_stop_of_writable hknown ⟨rfl, rfl, rfl⟩ hwritable hvisit
    obtain ⟨source, details, rfl⟩ := verifySources_stop hstop
    refine .verifierFailed hroot hmakes ?_ _ source details _
    have hstops : ¬ (config.run.onError = .keepGoing ∨
        ∀ group ∈ tree.groups root, ¬ Fails config tree verifier group) :=
      fun h => by cases hnone.mpr h
    push Not at hstops
    obtain ⟨hkeep, hfails⟩ := hstops
    refine ⟨?_, hfails⟩
    cases hpolicy : config.run.onError with
    | keepGoing => exact absurd hpolicy hkeep
    | abort => rfl

theorem execute_ending (config : Config) (tree : MemoryTree) (verifier : ScriptedVerifier)
    (root : Path) :
    Ending config tree verifier root
      (execute (Setting.inMemory config) root (tree, verifier)) := by
  by_cases hroot : tree.dirs.contains root = true
  · rw [execute_apart_of_contains scriptedVerifier config hroot]
    by_cases hreadOnly : tree.readOnly = true
    · exact visitGroups_ending_of_readOnly hroot hreadOnly
    · exact visitGroups_ending_of_writable hroot hreadOnly
  · rw [execute_apart_of_not_contains scriptedVerifier config hroot]
    by_cases hfile : containsPath tree.files root = true
    · rw [if_pos hfile]
      exact .rootNotDirectory hroot hfile
    · rw [if_neg hfile]
      exact .rootMissing hroot hfile

/-- Where directories can be made and no failure ends it, a run over a known root gets through. -/
theorem exists_report_of_not_aborts (hroot : tree.dirs.contains root = true)
    (hwritable : ¬ tree.readOnly = true) (hquiet : ¬ Aborts config tree verifier root) :
    ∃ report, (execute (Setting.inMemory config) root (tree, verifier)).2 = .ok report := by
  have hending := execute_ending config tree verifier root
  rcases hresult : execute (Setting.inMemory config) root (tree, verifier) with ⟨run, result⟩
  rw [hresult] at hending
  cases hending with
  | rootNotDirectory unknown => exact absurd hroot unknown
  | rootMissing unknown => exact absurd hroot unknown
  | outputDirectory _ readOnly => exact absurd readOnly hwritable
  | verifierFailed _ _ aborts => exact absurd aborts hquiet
  | finished _ _ _ _ report => exact ⟨report, rfl⟩

/-- Which ending a run takes, and what it leaves behind. -/
structure Classified (config : Config) (tree : MemoryTree) (verifier : ScriptedVerifier) (root : Path)
    (run : Run (MemoryTree × ScriptedVerifier)) (result : Except Failure Report) : Prop where
  rootNotDirectory : result = .error (.rootNotDirectory root) ↔
    ¬ tree.dirs.contains root = true ∧ containsPath tree.files root = true
  rootMissing : result = .error (.rootMissing root) ↔
    ¬ tree.dirs.contains root = true ∧ ¬ containsPath tree.files root = true
  /-- The first group that has sources is named. -/
  outputDirectory : ∀ dir cause, result = .error (.outputDirectory dir cause) ↔
    tree.dirs.contains root = true ∧ tree.readOnly = true ∧
      ∃ group, (tree.groups root).find? (fun group => Busy config tree group) = some group ∧
        dir = config.layout.outputDir group.name ∧ cause = .refused
  verifierFailed : (∃ source details report, result = .error (.verifier source details report)) ↔
    tree.dirs.contains root = true ∧ ¬ Refused config tree root ∧ Aborts config tree verifier root
  finished : (∃ report, result = .ok report) ↔
    tree.dirs.contains root = true ∧ ¬ Refused config tree root ∧ ¬ Aborts config tree verifier root
  noOther : ∀ failure, result = .error failure →
    failure = .rootNotDirectory root ∨ failure = .rootMissing root ∨
      (∃ dir, failure = .outputDirectory dir .refused) ∨
        ∃ source details report, failure = .verifier source details report
  /-- Past the check of the root no listing fails. The groups are what the listing of the root keeps
  that has a name. -/
  listGroups : tree.checkRoot root = .ok () → ∃ listing, tree.listGroups root = .ok listing ∧
    tree.groups root = listing.kept.filterMap Group.ofPath? ∧
    ∀ group, group ∈ tree.groups root ↔
      group.path ∈ listing.kept ∧ group.path.name? = some group.name
  /-- The sources of a group are what its listing keeps that has the extension. They make it busy, and
  the script may have one of them fail. -/
  listFiles : ∀ group ∈ tree.groups root, ∃ listing, tree.listFiles group.path = .ok listing ∧
    tree.sources config.layout.sourceExtension group = listing.kept.filterMap (fun path =>
      Source.matching? path config.layout.sourceExtension) ∧
    (Busy config tree group ↔ ∃ path ∈ listing.kept,
      path.extension? = some (Utf8.encode config.layout.sourceExtension)) ∧
    (Fails config tree verifier group ↔ ∃ path ∈ listing.kept,
      path.extension? = some (Utf8.encode config.layout.sourceExtension) ∧ ∃ key status,
        verifier.script.find? (fun entry => entry.1.Same path) = some (key, status) ∧
          status ≠ .succeeded)
  rootUntouched : ¬ tree.dirs.contains root = true →
    run.trace = [] ∧ progressText run.trace = "" ∧ run.state = (tree, verifier)
  /-- The groups are told up to the one that needs the directory. -/
  outputUntouched : ∀ dir cause, result = .error (.outputDirectory dir cause) →
    run.state = (tree, verifier) ∧
      ∃ before group after, tree.groups root = before ++ group :: after ∧
        (∀ g ∈ before, ¬ Busy config tree g) ∧ Busy config tree group ∧
        dir = config.layout.outputRoot.join ⟨group.name⟩ ∧
        progressText run.trace =
          String.join ((before ++ [group]).map fun group => group.path.display ++ ":\n")

theorem find?_busy {before after : List Group} {group : Group}
    (hgroups : tree.groups root = before ++ group :: after)
    (hidle : ∀ g ∈ before, ¬ Busy config tree g) (hbusy : Busy config tree group) :
    (tree.groups root).find? (fun group => Busy config tree group) = some group := by
  refine List.find?_eq_some_iff_append.mpr ⟨decide_eq_true hbusy, before, after, hgroups, ?_⟩
  simpa using hidle

theorem refused_of_find? {group : Group} (hreadOnly : tree.readOnly = true)
    (h : (tree.groups root).find? (fun group => Busy config tree group) = some group) :
    Refused config tree root := by
  have hbusy := List.find?_some h
  exact ⟨hreadOnly, group, List.mem_of_find?_eq_some h, of_decide_eq_true hbusy⟩

theorem listGroups_of_checkRoot (h : tree.checkRoot root = .ok ()) :
    ∃ listing, tree.listGroups root = .ok listing ∧
      tree.groups root = listing.kept.filterMap Group.ofPath? ∧
      ∀ group, group ∈ tree.groups root ↔
        group.path ∈ listing.kept ∧ group.path.name? = some group.name := by
  have hknown : tree.dirs.contains root = true := by
    unfold MemoryTree.checkRoot at h
    split_ifs at h with hknown
    exact hknown
  refine ⟨_, MemoryTree.listGroups_of_contains hknown, rfl, fun group => ?_⟩
  rw [MemoryTree.mem_groups, List.mem_filter, and_assoc]

theorem listFiles_of_mem_groups {group : Group} (h : group ∈ tree.groups root) (extension : String) :
    ∃ listing, tree.listFiles group.path = .ok listing ∧
      tree.sources extension group = listing.kept.filterMap fun path =>
        Source.matching? path extension := by
  obtain ⟨entries, hentries⟩ :=
    Option.isSome_iff_exists.mp (MemoryTree.contains_of_mem_groups h)
  refine ⟨⟨entries.filter (containsPath tree.files), []⟩, ?_, ?_⟩
  · simp only [MemoryTree.listFiles, MemoryTree.list, hentries]
  · rw [MemoryTree.sources, hentries]
    rfl

/-- Files with the extension are what a group is busy with. -/
theorem busy_iff_of_sources {group : Group} {files : List Path}
    (h : tree.sources config.layout.sourceExtension group = files.filterMap fun path =>
      Source.matching? path config.layout.sourceExtension) :
    Busy config tree group ↔ ∃ path ∈ files,
      path.extension? = some (Utf8.encode config.layout.sourceExtension) := by
  have hexists := @Source.exists_matching?_iff files config.layout.sourceExtension fun _ => True
  simp only [and_true] at hexists
  rw [Busy, h, ← hexists, ← List.length_pos_iff, List.length_pos_iff_exists_mem]

/-- A group fails by a file with the extension for which the script has no success. -/
theorem fails_iff_of_sources {group : Group} {files : List Path}
    (h : tree.sources config.layout.sourceExtension group = files.filterMap fun path =>
      Source.matching? path config.layout.sourceExtension) :
    Fails config tree verifier group ↔ ∃ path ∈ files,
      path.extension? = some (Utf8.encode config.layout.sourceExtension) ∧ ∃ key status,
        verifier.script.find? (fun entry => entry.1.Same path) = some (key, status) ∧
          status ≠ .succeeded := by
  unfold Fails
  simp only [h, Status.isSuccess_eq, decide_eq_false_iff_not]
  exact Source.exists_matching?_iff fun path => ∃ key status,
    verifier.script.find? (fun entry => entry.1.Same path) = some (key, status) ∧ status ≠ .succeeded

theorem Ending.classified {answer : Run (MemoryTree × ScriptedVerifier) × Except Failure Report}
    (h : Ending config tree verifier root answer) :
    Classified config tree verifier root answer.1 answer.2 where
  rootNotDirectory := by cases h <;> simp_all
  rootMissing := by cases h <;> simp_all
  outputDirectory dir cause := by
    cases h with
    | outputDirectory known readOnly groups idle busy state progress =>
      simp [known, readOnly, find?_busy groups idle busy, eq_comm]
    | verifierFailed known makes =>
      simp only [Except.error.injEq, reduceCtorEq, false_iff]
      rintro ⟨-, hreadOnly, group, hfirst, -⟩
      exact makes (refused_of_find? hreadOnly hfirst)
    | finished known makes =>
      simp only [reduceCtorEq, false_iff]
      rintro ⟨-, hreadOnly, group, hfirst, -⟩
      exact makes (refused_of_find? hreadOnly hfirst)
    | rootNotDirectory unknown => simp [unknown]
    | rootMissing unknown => simp [unknown]
  verifierFailed := by
    cases h with
    | outputDirectory known readOnly groups idle busy state progress =>
      have hrefused := refused_of_find? readOnly (find?_busy groups idle busy)
      simp [hrefused]
    | verifierFailed known makes aborts => simp [known, makes, aborts]
    | finished known makes quiet => simp [quiet]
    | rootNotDirectory unknown => simp [unknown]
    | rootMissing unknown => simp [unknown]
  finished := by
    cases h with
    | outputDirectory known readOnly groups idle busy state progress =>
      have hrefused := refused_of_find? readOnly (find?_busy groups idle busy)
      simp [hrefused]
    | verifierFailed known makes aborts => simp [aborts]
    | finished known makes quiet => simp [known, makes, quiet]
    | rootNotDirectory unknown => simp [unknown]
    | rootMissing unknown => simp [unknown]
  noOther := by cases h <;> simp
  listGroups := listGroups_of_checkRoot
  listFiles group hgroup := by
    obtain ⟨listing, hlist, hsources⟩ :=
      listFiles_of_mem_groups hgroup config.layout.sourceExtension
    exact ⟨listing, hlist, hsources, busy_iff_of_sources hsources, fails_iff_of_sources hsources⟩
  rootUntouched hunknown := by
    cases h with
    | rootNotDirectory => exact ⟨rfl, rfl, rfl⟩
    | rootMissing => exact ⟨rfl, rfl, rfl⟩
    | outputDirectory known => exact absurd known hunknown
    | verifierFailed known => exact absurd known hunknown
    | finished known => exact absurd known hunknown
  outputUntouched dir cause hresult := by
    cases h with
    | outputDirectory known readOnly groups idle busy state progress =>
      cases hresult
      exact ⟨state, _, _, _, groups, idle, busy, rfl, congrArg String.join progress⟩
    | rootNotDirectory => cases hresult
    | rootMissing => cases hresult
    | verifierFailed => cases hresult
    | finished => cases hresult

/-- The ending of a run over a tree in memory, whichever tree, script, configuration and root. -/
theorem execute_classified (config : Config) (tree : MemoryTree) (verifier : ScriptedVerifier)
    (root : Path) :
    let answer := execute (Setting.inMemory config) root (tree, verifier)
    Classified config tree verifier root answer.1 answer.2 :=
  (execute_ending config tree verifier root).classified

end BatchVerify.Batch
