import BatchVerify.Proofs.Batch.Alignment
import BatchVerify.Proofs.Disk.Making

/-!
# What a run does to a disk

Every step of a run over a disk leaves what is there as it is, and puts directories where nothing was
(`Batch.grows_of_reaches`). What is new was made for a group that the run came to and found sources in
(`Batch.exists_of_new_visitGroups`), and the directory of every outcome is there at the end
(`Batch.isDirectory_of_outcome`). So a run only adds output directories
(`Batch.execute_adds_output_directories`), however it ends.
-/

namespace BatchVerify

variable {τ : Type}

/-- What a run over a disk depends on. Verifier and progress have a state of their own, so that nothing
touches the disk but the making of directories. -/
def Setting.overDisk (verifier : Verifier τ) (config : Config)
    (tell : String → τ → Except SystemError Unit × τ := fun _ state => (.ok (), state)) :
    Setting (Disk × τ) :=
  { Setting.apart diskTree verifier config with
    tell := fun line state => ((tell line state.2).1, (state.1, (tell line state.2).2)) }

namespace Disk

variable {disk : Disk} {dir : Path}

theorem snd_ensureDir (dir : Path) (disk : Disk) :
    (disk.ensureDir dir).2 = (disk.makeDirectories dir).2 := by
  unfold ensureDir
  rcases disk.makeDirectories dir with ⟨_ | _, made⟩ <;> rfl

theorem isDirectory_ensureDir (hbytes : dir.bytes ≠ []) (h : (disk.ensureDir dir).1.isOk = true) :
    (disk.ensureDir dir).2.isDirectory dir = true := by
  unfold ensureDir at h ⊢
  rcases hmade : disk.makeDirectories dir with ⟨_ | _, made⟩ <;> rw [hmade] at h
  · cases h
  · exact isDirectory_makeDirectories hbytes hmade

end Disk

namespace Batch

/-- A group that a run comes to, on its way through some groups, and finds sources in. -/
def FindsSources {σ : Type} (setting : Setting σ) (groups : List Group) (start : Run σ)
    (group : Group) : Prop :=
  ∃ earlier later reached announced listing, groups = earlier ++ group :: later ∧
    visitGroups setting earlier start = (reached, none) ∧
    announce setting group reached = (announced, none) ∧
    setting.tree.listFiles group.path announced.state = .ok listing ∧
    sourcesIn setting listing ≠ []

theorem FindsSources.cons {σ : Type} {setting : Setting σ} {first group : Group}
    {groups : List Group} {start visited : Run σ}
    (hvisit : visitGroup setting first start = (visited, none))
    (h : FindsSources setting groups visited group) :
    FindsSources setting (first :: groups) start group := by
  obtain ⟨earlier, later, reached, announced, listing, hgroups, hreached, hfound⟩ := h
  refine ⟨first :: earlier, later, reached, announced, listing, ?_, ?_, hfound⟩
  · rw [hgroups, List.cons_append]
  · rw [visitGroups_cons_of_none hvisit, hreached]

theorem FindsSources.append {σ : Type} {setting : Setting σ} {group : Group} {groups : List Group}
    {start : Run σ} (h : FindsSources setting groups start group) (more : List Group) :
    FindsSources setting (groups ++ more) start group := by
  obtain ⟨earlier, later, reached, announced, listing, hgroups, hfound⟩ := h
  refine ⟨earlier, later ++ more, reached, announced, listing, ?_, hfound⟩
  rw [hgroups, List.append_assoc, List.cons_append]

variable {verifier : Verifier τ} {config : Config} {tell : String → τ → Except SystemError Unit × τ}
  {run next later : Run (Disk × τ)} {group : Group} {groups : List Group} {place : Location}

/-! ## What each part of a run does to the disk -/

section

variable (verifier config tell)

theorem disk_announce (group : Group) (run : Run (Disk × τ)) :
    (announce (Setting.overDisk verifier config tell) group run).1.state.1 = run.state.1 := by
  rcases announce_cases (Setting.overDisk verifier config tell) group run with
    ⟨cause, _, heq⟩ | ⟨_, heq⟩ <;> rw [heq] <;> rfl

/-- Opening a group leaves the disk as it is, or makes the output directory as far as it can. -/
theorem disk_openGroup (group : Group) (run : Run (Disk × τ)) :
    (openGroup (Setting.overDisk verifier config tell) group run).1.state.1 = run.state.1 ∨
      ∃ listing,
        (Setting.overDisk verifier config tell).tree.listFiles group.path run.state = .ok listing ∧
        sourcesIn (Setting.overDisk verifier config tell) listing ≠ [] ∧
        (openGroup (Setting.overDisk verifier config tell) group run).1.state.1 =
          (run.state.1.makeDirectories (config.layout.outputDir group.name)).2 := by
  cases hlist : (Setting.overDisk verifier config tell).tree.listFiles group.path run.state with
  | error failure =>
    rw [openGroup_of_error hlist]
    exact Or.inl rfl
  | ok listing =>
    by_cases hsources : sourcesIn (Setting.overDisk verifier config tell) listing = []
    · rw [openGroup_of_nil hlist hsources]
      exact Or.inl rfl
    · rw [openGroup_of_ne_nil hlist hsources, ← Disk.snd_ensureDir]
      exact Or.inr ⟨listing, rfl, hsources, rfl⟩

end

theorem disk_verifySources (group : Group) (sources : List Source) (run : Run (Disk × τ)) :
    (verifySources (Setting.overDisk verifier config tell) group sources run).1.state.1 =
      run.state.1 :=
  verifySources_keeps (P := fun state : Disk × τ => state.1 = run.state.1) (fun _ hstate => hstate) group
    sources rfl

theorem grows_step (h : Step (Setting.overDisk verifier config tell) run next) :
    run.state.1.Grows next.state.1 := by
  cases h with
  | announce group =>
    rw [disk_announce]
    exact Disk.Grows.refl _
  | openGroup group =>
    rcases disk_openGroup verifier config tell group run with heq | ⟨_, _, _, heq⟩ <;> rw [heq]
    · exact Disk.Grows.refl _
    · exact Disk.grows_makeDirectories _ _
  | verify group source => exact Disk.Grows.refl _

/-- What is on the disk stays as it is, and what is new are directories. -/
theorem grows_of_reaches (h : Reaches (Setting.overDisk verifier config tell) run later) :
    run.state.1.Grows later.state.1 :=
  h.keeps (P := fun stage => run.state.1.Grows stage.state.1)
    (fun hstep hstage => hstage.trans (grows_step hstep)) (Disk.Grows.refl _)

/-! ## What is new -/

/-- What is new once a group was visited is where the path of its output directory, or one above it,
leads; and the group has sources. -/
theorem exists_of_new_visitGroup (group : Group) (hfree : run.state.1.node? place = none)
    (hthere : (visitGroup (Setting.overDisk verifier config tell) group run).1.state.1.node? place ≠
      none) :
    FindsSources (Setting.overDisk verifier config tell) [group] run group ∧
      ∃ above ∈ (config.layout.outputDir group.name).ancestors,
        (visitGroup (Setting.overDisk verifier config tell) group run).1.state.1.find above =
          .ok place := by
  have hquiet := disk_announce verifier config tell group run
  rcases hannounce : announce (Setting.overDisk verifier config tell) group run with
    ⟨announced, _ | failure⟩ <;> rw [hannounce] at hquiet
  swap
  · rw [visitGroup_of_untold _ hannounce, hquiet] at hthere
    exact absurd hfree hthere
  -- the sources do not touch the disk, so it is as the opened group left it
  have hopened : (visitGroup (Setting.overDisk verifier config tell) group run).1.state.1 =
      (openGroup (Setting.overDisk verifier config tell) group announced).1.state.1 := by
    rcases hopen : openGroup (Setting.overDisk verifier config tell) group announced with
      ⟨opened, failure | sources⟩
    · rw [visitGroup_of_unopened _ hannounce hopen]
    · rw [visitGroup_of_opened _ hannounce hopen, disk_verifySources]
  rw [hopened] at hthere ⊢
  rcases disk_openGroup verifier config tell group announced with
    heq | ⟨listing, hlist, hsources, heq⟩ <;> rw [heq] at hthere
  · rw [hquiet] at hthere
    exact absurd hfree hthere
  · rw [heq]
    refine ⟨⟨[], [], run, announced, listing, rfl, rfl, hannounce, hlist, hsources⟩, ?_⟩
    rw [← hquiet] at hfree
    exact Disk.exists_ancestor_of_new hfree hthere

/-- What is new once some groups were visited was made for one of them, which has sources. -/
theorem exists_of_new_visitGroups (groups : List Group) (run : Run (Disk × τ))
    (hfree : run.state.1.node? place = none)
    (hthere : (visitGroups (Setting.overDisk verifier config tell) groups run).1.state.1.node? place ≠
      none) :
    ∃ group, FindsSources (Setting.overDisk verifier config tell) groups run group ∧
      ∃ above ∈ (config.layout.outputDir group.name).ancestors,
        (visitGroups (Setting.overDisk verifier config tell) groups run).1.state.1.find above =
          .ok place := by
  induction groups generalizing run with
  | nil => exact absurd hfree hthere
  | cons group groups ih =>
    have hfirst (h : (visitGroup (Setting.overDisk verifier config tell) group
        run).1.state.1.node? place ≠ none) := exists_of_new_visitGroup group hfree h
    rcases hvisit : visitGroup (Setting.overDisk verifier config tell) group run with
      ⟨visited, _ | failure⟩ <;> rw [hvisit] at hfirst
    · rw [visitGroups_cons_of_none hvisit] at hthere ⊢
      by_cases hvisited : visited.state.1.node? place = none
      · -- it is made by a later visit
        obtain ⟨found, hsources, habove⟩ := ih visited hvisited hthere
        exact ⟨found, hsources.cons hvisit, habove⟩
      · obtain ⟨hsources, above, hmem, hfind⟩ := hfirst hvisited
        have hgrows := grows_of_reaches
          (reaches_visitGroups (Setting.overDisk verifier config tell) groups visited)
        exact ⟨group, hsources.append groups, above, hmem, Disk.find_kept hgrows.keeps hfind⟩
    · rw [visitGroups_cons_of_some hvisit] at hthere ⊢
      obtain ⟨hsources, habove⟩ := hfirst hthere
      exact ⟨group, hsources.append groups, habove⟩

/-! ## The directories of outcomes -/

/-- Every directory that was made is there. -/
def MadeThere (run : Run ((Disk × τ) × List Effect)) : Prop :=
  ∀ dir, Effect.ensured dir ∈ run.state.2 → dir.bytes ≠ [] → run.state.1.1.isDirectory dir = true

theorem madeThere_step {run next : Run ((Disk × τ) × List Effect)}
    (h : Step (Setting.overDisk verifier config tell).recorded run next) (hrun : MadeThere run) :
    MadeThere next := by
  cases h with
  | announce group =>
    rcases announce_cases (Setting.overDisk verifier config tell).recorded group run with
      ⟨cause, _, heq⟩ | ⟨_, heq⟩ <;> rw [heq] <;> exact hrun
  | openGroup group =>
    unfold MadeThere
    rcases state_openGroup (Setting.overDisk verifier config tell).recorded group run with
      hsame | hmade
    · rwa [hsame]
    · rw [hmade]
      intro dir hmem hbytes
      rcases List.mem_append.mp hmem with hmem | hmem
      · -- what was made before stays
        refine Disk.Grows.isDirectory ?_ (hrun dir hmem hbytes)
        show run.state.1.1.Grows (run.state.1.1.ensureDir (config.layout.outputDir group.name)).2
        rw [Disk.snd_ensureDir]
        exact Disk.grows_makeDirectories _ _
      · split_ifs at hmem with hok
        · cases List.mem_singleton.mp hmem
          exact Disk.isDirectory_ensureDir hbytes hok
        · cases hmem
  | verify group source =>
    intro dir hmem hbytes
    refine hrun dir ?_ hbytes
    rcases List.mem_append.mp hmem with hmem | hmem
    · exact hmem
    · cases List.mem_singleton.mp hmem

/-- The directory of every outcome was made. -/
theorem Course.ensured_of_mem {σ : Type} {setting : Setting σ} {sound : σ → Prop} {root : Path}
    {state : σ} {visits : List Visit} (hcourse : Course setting sound root state visits)
    {outcome : Outcome} (hmem : outcome ∈ (execute setting root state).1.report.outcomes) :
    Effect.ensured (setting.config.layout.outputDir outcome.group) ∈
      Batch.effects setting root state := by
  rw [hcourse.outcomes] at hmem
  obtain ⟨visit, hvisit, houtcome⟩ := List.mem_flatMap.mp hmem
  rw [hcourse.effects]
  refine List.mem_flatMap.mpr ⟨visit, hvisit, ?_⟩
  have hanswered : visit.answered ≠ [] :=
    mt (Visit.outcomes_eq_nil_iff setting visit).mpr (List.ne_nil_of_mem houtcome)
  rw [Visit.effects, if_neg hanswered, Visit.group_of_mem_outcomes houtcome]
  exact List.mem_cons_self

/-- The directory of the target of every outcome is there at the end. -/
theorem isDirectory_of_outcome (haccepted : config.Accepted) (root : Path) (disk : Disk) (state : τ)
    {outcome : Outcome} (hmem : outcome ∈
      (execute (Setting.overDisk verifier config tell) root (disk, state)).1.report.outcomes) :
    ∃ dir, outcome.target.parent? = some dir ∧
      (execute (Setting.overDisk verifier config tell) root (disk, state)).1.state.1.isDirectory dir =
        true := by
  have hover : (Setting.overDisk verifier config tell).Over fun _ => True :=
    .disk Prod.fst (fun changed state => (changed, state.2)) rfl
  obtain ⟨visits, hcourse⟩ := execute_course hover.orderly.keeps (show (fun _ => True) (disk, state) from trivial) root
  obtain ⟨stem, hplaced⟩ := hcourse.placed hover.orderly trivial hmem
  obtain ⟨hext, hslash⟩ := haccepted.targetExtension
  refine ⟨config.layout.outputDir outcome.group, ?_, ?_⟩
  · rw [hplaced.target]
    exact config.layout.parent?_target hext hslash hplaced.group hplaced.stemmed.1 hplaced.stemmed.2
  · have hmade : MadeThere
        (execute (Setting.overDisk verifier config tell).recorded root ((disk, state), [])).1 :=
      execute_keeps madeThere_step (fun events hrun => hrun) (fun dir hmem => nomatch hmem)
    have hthere := hmade _ (hcourse.ensured_of_mem hmem)
      (config.layout.bytes_outputDir_ne_nil hplaced.group)
    rwa [(execute_recorded (Setting.overDisk verifier config tell) root (disk, state)).1.state] at hthere

/-! ## Whole runs -/

theorem grows_execute (root : Path) (disk : Disk) (state : τ) : disk.Grows
    (execute (Setting.overDisk verifier config tell) root (disk, state)).1.state.1 :=
  execute_keeps (P := fun run : Run (Disk × τ) => disk.Grows run.state.1)
    (fun hstep hrun => hrun.trans (grows_step hstep)) (fun _ hrun => hrun) (Disk.Grows.refl disk)

/-- What is new after a run was made for a group of its root. -/
theorem exists_of_new_execute (root : Path) (disk : Disk) (state : τ)
    (hfree : disk.node? place = none)
    (hthere : (execute (Setting.overDisk verifier config tell) root
      (disk, state)).1.state.1.node? place ≠ none) :
    ∃ listing group, disk.listGroups root = .ok listing ∧
      FindsSources (Setting.overDisk verifier config tell) (listing.kept.filterMap Group.ofPath?)
        { state := (disk, state), trace := listing.events } group ∧
      ∃ above ∈ (config.layout.outputDir group.name).ancestors,
        (execute (Setting.overDisk verifier config tell) root (disk, state)).1.state.1.find above =
          .ok place := by
  have hgroups : (Setting.overDisk verifier config tell).tree.listGroups root (disk, state) =
      disk.listGroups root := rfl
  unfold execute at hthere ⊢
  rw [hgroups] at hthere ⊢
  cases hroot : (Setting.overDisk verifier config tell).tree.checkRoot root (disk, state) with
  | error failure =>
    rw [hroot] at hthere
    exact absurd hfree hthere
  | ok checked =>
    cases hlist : disk.listGroups root with
    | error failure =>
      rw [hroot, hlist] at hthere
      exact absurd hfree hthere
    | ok listing =>
      rw [hroot, hlist] at hthere
      dsimp only at hthere ⊢
      -- the end of a run does not touch the disk
      have hfinish (result : Run (Disk × τ) × Option Failure) :
          (finish result).1.state = result.1.state := by
        obtain ⟨visited, _ | failure⟩ := result <;> rfl
      rw [hfinish] at hthere ⊢
      obtain ⟨group, hsources, habove⟩ := exists_of_new_visitGroups
        (listing.kept.filterMap Group.ofPath?) _ hfree hthere
      exact ⟨listing, group, rfl, hsources, habove⟩

/-- However a run over a disk ends, what was there stays as it is, and what is new are directories, each
where the path of an output directory or the beginning of one leads, for a group that the run came to
and found sources in. With a configuration that validation lets through, the directories of all targets
in the report that is handed over are there. -/
theorem execute_adds_output_directories (verifier : Verifier τ) (config : Config)
    (tell : String → τ → Except SystemError Unit × τ) (root : Path) (disk : Disk) (state : τ) :
    let setting := Setting.overDisk verifier config tell
    let ran := execute setting root (disk, state)
    let after := ran.1.state.1
    (∀ place node, disk.node? place = some node → after.node? place = some node) ∧
    (∀ place, disk.node? place = none → after.node? place ≠ none →
      after.node? place = some .directory ∧
        ∃ listing group, disk.listGroups root = .ok listing ∧
          FindsSources setting (listing.kept.filterMap Group.ofPath?)
            { state := (disk, state), trace := listing.events } group ∧
          ∃ above : Path, above.components <+: (config.layout.outputDir group.name).components ∧
            after.find above = .ok place) ∧
    (config.Accepted → ∀ report, handedOver ran.2 = some report → ∀ outcome ∈ report.outcomes,
      ∃ dir, outcome.target.parent? = some dir ∧ after.isDirectory dir = true) := by
  intro setting ran after
  have hgrows : disk.Grows after := grows_execute root disk state
  refine ⟨fun place node hnode => hgrows.node?_eq hnode, ?_, ?_⟩
  · intro place hfree hthere
    refine ⟨?_, ?_⟩
    · rcases hgrows.node? place with hsame | ⟨-, hdir⟩
      · exact absurd (hsame.trans hfree) hthere
      · exact hdir
    · obtain ⟨listing, group, hlist, hsources, above, hmem, hfind⟩ :=
        exists_of_new_execute root disk state hfree hthere
      exact ⟨listing, group, hlist, hsources, above, Disk.components_prefix_of_mem_upward hmem, hfind⟩
  · intro haccepted report hreport outcome hmem
    have hover : setting.Over fun _ => True :=
      .disk Prod.fst (fun changed state => (changed, state.2)) rfl
    rw [← report_of_handedOver hover.known.plain hreport] at hmem
    exact isDirectory_of_outcome haccepted root disk state hmem

/-- A group that is a link, and a link to a directory elsewhere by which output directories are told. -/
def linkedDisk : Disk where
  nodes :=
    [ ([Utf8.encode "data"], .directory),
      ([Utf8.encode "alpha", Utf8.encode "data"], .directory),
      ([Utf8.encode "a.bpl", Utf8.encode "alpha", Utf8.encode "data"], .file {}),
      ([Utf8.encode "beta", Utf8.encode "data"], .link (Path.ofString "../real")),
      ([Utf8.encode "real"], .directory),
      ([Utf8.encode "b.bpl", Utf8.encode "real"], .file {}),
      ([Utf8.encode "deep"], .directory),
      ([Utf8.encode "store", Utf8.encode "deep"], .directory),
      ([Utf8.encode "out"], .link (Path.ofString "deep/store")) ]

/-- A step out of what the link leads to is not a step back, so the output directories lie beside the
directory that the link leads to. -/
theorem execute_adds_output_directories_linked :
    let config : Config := { layout := { outputRoot := Path.ofString "out/../logs" } }
    let setting := Setting.overDisk scriptedVerifier config
    let start := (linkedDisk, ({} : ScriptedVerifier))
    let ran := execute setting (Path.ofString "data") start
    let file := [Utf8.encode "b.bpl", Utf8.encode "real"]
    let place := [Utf8.encode "beta", Utf8.encode "logs", Utf8.encode "deep"]
    ran.1.state.1.node? file = some (.file {}) ∧
    (linkedDisk.node? place = none ∧ ran.1.state.1.node? place = some .directory ∧
      ∃ listing group, linkedDisk.listGroups (Path.ofString "data") = .ok listing ∧
        FindsSources setting (listing.kept.filterMap Group.ofPath?)
          { state := start, trace := listing.events } group ∧
        ∃ above : Path, above.components <+: (config.layout.outputDir group.name).components ∧
          ran.1.state.1.find above = .ok place) ∧
    ∃ report, handedOver ran.2 = some report ∧ report.outcomes.length = 2 ∧
      ∀ outcome ∈ report.outcomes,
        ∃ dir, outcome.target.parent? = some dir ∧ ran.1.state.1.isDirectory dir = true := by
  intro config setting start ran file place
  obtain ⟨hkept, hnew, hdirs⟩ := execute_adds_output_directories scriptedVerifier config
    (fun _ state => (.ok (), state)) (Path.ofString "data") linkedDisk {}
  have hvalid : config.validate = .ok config := by decide +kernel
  have hrun : (ran.1.state.1.node? place).isSome ∧ handedOver ran.2 = some ran.1.report ∧
      ran.1.report.outcomes.length = 2 := by
    -- merging does not evaluate in the kernel, inserting does
    simp only [ran, setting, start, Setting.overDisk, Setting.apart, sideBySide, SourceTree.within,
      diskTree, Disk.listGroups, Disk.listFiles, Disk.list, Disk.sortedNames, Disk.mergeSort_nameLe]
    decide +kernel
  obtain ⟨hthere, hreport, hlength⟩ := hrun
  have hfree : linkedDisk.node? place = none := by decide +kernel
  obtain ⟨hplace, hgroup⟩ := hnew place hfree fun hnone => by
    rw [show ran.1.state.1.node? place = none from hnone] at hthere
    cases hthere
  refine ⟨hkept file _ (by decide +kernel), ⟨hfree, hplace, hgroup⟩, _, hreport, hlength, ?_⟩
  exact hdirs (Or.inl ⟨config, hvalid⟩) _ hreport

end Batch

end BatchVerify
