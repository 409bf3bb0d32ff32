import BatchVerify.Proofs.Batch.Steps
import BatchVerify.Verifier.Scripted

/-!
# Runs with a tree and a verifier side by side

Where tree and verifier do not touch each other (`Setting.apart`), the tree alone settles how a group
opens (`Batch.openGroup_apart_of_ne_nil`). A scripted verifier answers all along what its script says
(`Batch.script_step`), and the script alone settles whether the sources of a group are all verified
(`Batch.verifySources_eq_none_iff`) and with which outcomes (`Batch.outcomes_verifySources`).
-/

namespace BatchVerify

/-- What a run depends on when its tree and its verifier do not touch each other. -/
def Setting.apart {σ τ : Type} (tree : SourceTree σ) (verifier : Verifier τ) (config : Config) :
    Setting (σ × τ) where
  tree := (sideBySide tree verifier).1
  verifier := (sideBySide tree verifier).2
  config := config

/-- What a scripted verifier answers hangs on its script alone. -/
theorem ScriptedVerifier.statusOf_congr {verifier verifier' : ScriptedVerifier}
    (h : verifier.script = verifier'.script) : verifier.statusOf = verifier'.statusOf := by
  funext source
  rw [statusOf, statusOf, h]

namespace Batch

/-- A run that returns a report visited all groups of its root. -/
theorem exists_of_execute_ok {σ : Type} {setting : Setting σ} {root : Path} {state : σ}
    {report : Report} (h : (execute setting root state).2 = .ok report) :
    ∃ listing visited, setting.tree.checkRoot root state = .ok () ∧
      setting.tree.listGroups root state = .ok listing ∧
      visitGroups setting (listing.kept.filterMap Group.ofPath?) { state, trace := listing.events } =
        (visited, none) ∧
      (execute setting root state).1 = visited.emit [.log (finishedRecord report)] ∧
      visited.report = report := by
  unfold execute at h ⊢
  cases hroot : setting.tree.checkRoot root state with
  | error failure =>
    rw [hroot] at h
    cases h
  | ok checked =>
    cases hlist : setting.tree.listGroups root state with
    | error failure =>
      rw [hroot, hlist] at h
      cases h
    | ok listing =>
      rw [hroot, hlist] at h
      dsimp only at h ⊢
      rcases hvisit : visitGroups setting (listing.kept.filterMap Group.ofPath?)
          { state, trace := listing.events } with ⟨visited, _ | failure⟩ <;> rw [hvisit] at h
      · cases h
        exact ⟨listing, visited, rfl, rfl, hvisit, rfl, rfl⟩
      · cases h

/-- The report that a run returns is the one that it gathered. -/
theorem report_execute {σ : Type} {setting : Setting σ} {root : Path} {state : σ} {report : Report}
    (h : (execute setting root state).2 = .ok report) :
    (execute setting root state).1.report = report := by
  obtain ⟨listing, visited, -, -, -, hend, hreport⟩ := exists_of_execute_ok h
  rw [hend]
  exact hreport

/-! ## Any verifier -/

section

variable {σ τ : Type} {part : SourceTree σ} {verifier : Verifier τ} {config : Config} {group : Group}

/-- Announcing a group cannot fail here. -/
theorem announce_apart (part : SourceTree σ) (verifier : Verifier τ) (config : Config) (group : Group)
    (run : Run (σ × τ)) :
    announce (Setting.apart part verifier config) group run =
      ({ state := run.state
         report := run.report.recordGroup
         trace := run.trace ++ [.progress (progressLine group)] }, none) := rfl

/-- A group with sources opens as far as its directory is made in the tree. -/
theorem openGroup_apart_of_ne_nil (part : SourceTree σ) {run : Run (σ × τ)} {listing : Listing}
    {made : Except Failure Unit} {after : σ}
    (hlist : part.listFiles group.path run.state.1 = .ok listing)
    (hsources : sourcesIn (Setting.apart part verifier config) listing ≠ [])
    (hmade : part.ensureDir (config.layout.outputDir group.name) run.state.1 = (made, after)) :
    openGroup (Setting.apart part verifier config) group run =
      ({ run.emit (listingEvents (Setting.apart part verifier config) group listing) with
          state := (after, run.state.2) },
        made.map fun () => sourcesIn (Setting.apart part verifier config) listing) := by
  have hensured : (Setting.apart part verifier config).tree.ensureDir
      (config.layout.outputDir group.name) run.state = (made, (after, run.state.2)) := by
    show ((part.ensureDir _ run.state.1).1, ((part.ensureDir _ run.state.1).2, run.state.2)) = _
    rw [hmade]
  rw [openGroup_of_ne_nil hlist hsources]
  dsimp only
  rw [show (Setting.apart part verifier config).config = config from rfl, hensured]

/-- A run that has announced and listed a group. -/
def introduced (setting : Setting σ) (group : Group) (listing : Listing) (run : Run σ) : Run σ :=
  { state := run.state
    report := run.report.recordGroup
    trace := run.trace ++ [.progress (progressLine group)] ++ listingEvents setting group listing }

section

variable (part : SourceTree σ) (verifier : Verifier τ) (config : Config) {run : Run (σ × τ)}
  {listing : Listing} {failure : Failure} {after : σ}

/-- A group that is announced, with the state as it was. -/
theorem exists_announced (group : Group) (run : Run (σ × τ)) :
    ∃ announced : Run (σ × τ), announced.state = run.state ∧
      (∀ listing, announced.emit (listingEvents (Setting.apart part verifier config) group listing) =
        introduced (Setting.apart part verifier config) group listing run) ∧
      announce (Setting.apart part verifier config) group run = (announced, none) :=
  ⟨(announce (Setting.apart part verifier config) group run).1, rfl, fun _ => rfl, rfl⟩

/-- A group that cannot be listed is the end of a run. -/
theorem visitGroup_apart_of_error (hlist : part.listFiles group.path run.state.1 = .error failure) :
    (visitGroup (Setting.apart part verifier config) group run).2 = some failure := by
  obtain ⟨announced, hstate, -, hannounce⟩ := exists_announced part verifier config group run
  rw [← hstate] at hlist
  rw [visitGroup_of_unopened _ hannounce (openGroup_of_error hlist)]

/-- A group without sources is passed by. -/
theorem visitGroup_apart_of_nil (hlist : part.listFiles group.path run.state.1 = .ok listing)
    (hnil : sourcesIn (Setting.apart part verifier config) listing = []) :
    visitGroup (Setting.apart part verifier config) group run =
      (introduced (Setting.apart part verifier config) group listing run, none) := by
  obtain ⟨announced, hstate, hintroduced, hannounce⟩ := exists_announced part verifier config group run
  rw [← hstate] at hlist
  rw [visitGroup_of_opened _ hannounce (openGroup_of_nil hlist hnil), hintroduced]
  rfl

/-- A directory that cannot be made is the end of a run. -/
theorem visitGroup_apart_of_refused (hlist : part.listFiles group.path run.state.1 = .ok listing)
    (hne : sourcesIn (Setting.apart part verifier config) listing ≠ [])
    (hmade : part.ensureDir (config.layout.outputDir group.name) run.state.1 =
      (.error failure, after)) :
    (visitGroup (Setting.apart part verifier config) group run).2 = some failure := by
  obtain ⟨announced, hstate, -, hannounce⟩ := exists_announced part verifier config group run
  rw [← hstate] at hlist hmade
  rw [visitGroup_of_unopened _ hannounce (openGroup_apart_of_ne_nil part hlist hne hmade)]

/-- The sources of a group are verified once its directory is made. -/
theorem visitGroup_apart_of_made (hlist : part.listFiles group.path run.state.1 = .ok listing)
    (hne : sourcesIn (Setting.apart part verifier config) listing ≠ [])
    (hmade : part.ensureDir (config.layout.outputDir group.name) run.state.1 = (.ok (), after)) :
    visitGroup (Setting.apart part verifier config) group run =
      verifySources (Setting.apart part verifier config) group
        (sourcesIn (Setting.apart part verifier config) listing)
        { introduced (Setting.apart part verifier config) group listing run with
          state := (after, run.state.2) } := by
  obtain ⟨announced, hstate, hintroduced, hannounce⟩ := exists_announced part verifier config group run
  rw [← hstate] at hlist hmade ⊢
  rw [visitGroup_of_opened _ hannounce (openGroup_apart_of_ne_nil part hlist hne hmade), hintroduced]

end

/-- A run over a root that can be listed, up to its end. -/
theorem execute_apart_of_listed (part : SourceTree σ) {root : Path} {start : σ} {listing : Listing}
    (hroot : part.checkRoot root start = .ok ()) (hlist : part.listGroups root start = .ok listing)
    (verifier : Verifier τ) (config : Config) (state : τ) :
    execute (Setting.apart part verifier config) root (start, state) =
      finish (visitGroups (Setting.apart part verifier config)
        (listing.kept.filterMap Group.ofPath?)
        { state := (start, state), trace := listing.events }) := by
  have hroot' : (Setting.apart part verifier config).tree.checkRoot root (start, state) = .ok () :=
    hroot
  have hlist' : (Setting.apart part verifier config).tree.listGroups root (start, state) =
      .ok listing := hlist
  simp only [execute, hroot', hlist']

end

/-! ## A scripted verifier -/

variable {σ : Type} {part : SourceTree σ} {config : Config} {verifier : ScriptedVerifier}
  {group : Group} {sources : List Source} {run next visited : Run (σ × ScriptedVerifier)}

/-- No step changes what the verifier will answer. -/
theorem script_step (h : Step (Setting.apart part scriptedVerifier config) run next) :
    next.state.2.script = run.state.2.script := by
  cases h with
  | announce group => rfl
  | openGroup group =>
    -- the tree and the verifier do not touch each other, so making a directory is no matter
    rcases state_openGroup (Setting.apart part scriptedVerifier config) group run with h | h <;> rw [h]
    rfl
  | verify group source => rfl

theorem outcomes_verifySources
    (h : verifySources (Setting.apart part scriptedVerifier config) group sources run =
      (visited, none)) :
    visited.report.outcomes = run.report.outcomes ++ sources.map fun source =>
      outcomeOf (Setting.apart part scriptedVerifier config) group source
        (run.state.2.statusOf source.path) := by
  induction sources generalizing run with
  | nil =>
    cases h
    simp
  | cons source sources ih =>
    simp only [verifySources] at h
    split at h
    · rw [ih h, report_verifySource, Report.record, List.map_cons, List.append_assoc]
      rfl
    · cases h

theorem verifySources_eq_none_iff (hscript : run.state.2.script = verifier.script) :
    (verifySources (Setting.apart part scriptedVerifier config) group sources run).2 = none ↔
      config.run.onError = .keepGoing ∨
        ∀ source ∈ sources, (verifier.statusOf source.path).isSuccess = true := by
  induction sources generalizing run with
  | nil => simp [verifySources]
  | cons source sources ih =>
    have hstatus : (verifySource (Setting.apart part scriptedVerifier config) group source run).2 =
        verifier.statusOf source.path :=
      congrFun (ScriptedVerifier.statusOf_congr hscript) source.path
    -- the script is what it was for the sources after this one
    have hlater :=
      @ih (verifySource (Setting.apart part scriptedVerifier config) group source run).1 hscript
    simp only [verifySources, List.forall_mem_cons, hstatus]
    split
    · next hgoes =>
      rw [hlater]
      rcases Bool.or_eq_true_iff.mp hgoes with hsuccess | hkeep
      · simp [hsuccess]
      · simp [show config.run.onError = .keepGoing from of_decide_eq_true hkeep]
    · next hstops =>
      rw [Bool.or_eq_true, not_or, decide_eq_true_iff] at hstops
      obtain ⟨hfailed, hstop⟩ := hstops
      simp [hfailed, show config.run.onError ≠ .keepGoing from hstop]

end Batch

end BatchVerify
