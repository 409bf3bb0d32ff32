import BatchVerify.Batch
import BatchVerify.Proofs.Report.Totals
import Mathlib.Logic.Relation

/-!
# The steps of a batch run

A run announces groups, opens them and verifies sources, whatever the tree, the verifier and the
policy. What each of these steps keeps, a whole run keeps (`Batch.reaches_visitGroups`); what stops
a run is one of few things (`Batch.visitGroups_stop`).
-/

namespace BatchVerify

/-- The invocation whose outcome was recorded. -/
def Outcome.invocation (settings : VerifierSettings) (outcome : Outcome) : Invocation :=
  Invocation.ofSource settings outcome.source outcome.target

namespace Batch

variable {σ : Type} {setting : Setting σ}

/-! ## What each part of a run can do -/

theorem announce_cases (setting : Setting σ) (group : Group) (run : Run σ) :
    (∃ cause, (setting.tell (progressLine group) run.state).1 = .error cause ∧
      announce setting group run =
        ({ run with state := (setting.tell (progressLine group) run.state).2 },
          some (.system cause))) ∨
    ((setting.tell (progressLine group) run.state).1 = .ok () ∧
      announce setting group run =
        ({ state := (setting.tell (progressLine group) run.state).2
           report := run.report.recordGroup
           trace := run.trace ++ [.progress (progressLine group)] }, none)) := by
  unfold announce
  rcases setting.tell (progressLine group) run.state with ⟨told, state⟩
  cases told with
  | error cause => exact Or.inl ⟨cause, rfl, rfl⟩
  | ok told => exact Or.inr ⟨rfl, rfl⟩

/-- What is told about a group once its files are listed. -/
def listingEvents (setting : Setting σ) (group : Group) (listing : Listing) : List Event :=
  listing.events ++ [.log (groupRecord group (sourcesIn setting listing).length)]

theorem openGroup_of_error {group : Group} {run : Run σ} {failure : Failure}
    (h : setting.tree.listFiles group.path run.state = .error failure) :
    openGroup setting group run = (run, .error failure) := by
  simp only [openGroup, h]

/-- A group without sources gets no directory. -/
theorem openGroup_of_nil {group : Group} {run : Run σ} {listing : Listing}
    (h : setting.tree.listFiles group.path run.state = .ok listing)
    (hsources : sourcesIn setting listing = []) :
    openGroup setting group run = (run.emit (listingEvents setting group listing), .ok []) := by
  simp [openGroup, h, hsources, listingEvents]

theorem openGroup_of_ne_nil {group : Group} {run : Run σ} {listing : Listing}
    (h : setting.tree.listFiles group.path run.state = .ok listing)
    (hsources : sourcesIn setting listing ≠ []) :
    openGroup setting group run =
      let made := setting.tree.ensureDir (setting.config.layout.outputDir group.name) run.state
      ({ run.emit (listingEvents setting group listing) with state := made.2 },
        made.1.map fun () => sourcesIn setting listing) := by
  simp [openGroup, h, hsources, listingEvents, Run.emit]

theorem visitGroup_of_untold (setting : Setting σ) {group : Group} {run stopped : Run σ}
    {failure : Failure} (h : announce setting group run = (stopped, some failure)) :
    visitGroup setting group run = (stopped, some failure) := by
  simp only [visitGroup, h]

theorem visitGroup_of_unopened (setting : Setting σ) {group : Group} {run announced stopped : Run σ}
    {failure : Failure} (hannounce : announce setting group run = (announced, none))
    (hopen : openGroup setting group announced = (stopped, .error failure)) :
    visitGroup setting group run = (stopped, some failure) := by
  simp only [visitGroup, hannounce, hopen]

theorem visitGroup_of_opened (setting : Setting σ) {group : Group} {run announced opened : Run σ}
    {sources : List Source} (hannounce : announce setting group run = (announced, none))
    (hopen : openGroup setting group announced = (opened, .ok sources)) :
    visitGroup setting group run = verifySources setting group sources opened := by
  simp only [visitGroup, hannounce, hopen]

theorem visitGroups_cons_of_none {group : Group} {groups : List Group} {run visited : Run σ}
    (h : visitGroup setting group run = (visited, none)) :
    visitGroups setting (group :: groups) run = visitGroups setting groups visited := by
  simp only [visitGroups, h]

theorem visitGroups_cons_of_some {group : Group} {groups : List Group} {run stopped : Run σ}
    {failure : Failure} (h : visitGroup setting group run = (stopped, some failure)) :
    visitGroups setting (group :: groups) run = (stopped, some failure) := by
  simp only [visitGroups, h]

/-! ## Steps -/

/-- One step of a run. -/
inductive Step (setting : Setting σ) : Run σ → Run σ → Prop
  | announce (group : Group) (run : Run σ) : Step setting run (announce setting group run).1
  | openGroup (group : Group) (run : Run σ) : Step setting run (openGroup setting group run).1
  | verify (group : Group) (source : Source) (run : Run σ) :
    Step setting run (verifySource setting group source run).1

/-- A run gets from one stage to another. -/
abbrev Reaches (setting : Setting σ) : Run σ → Run σ → Prop :=
  Relation.ReflTransGen (Step setting)

/-- What every step keeps is kept all along. -/
theorem Reaches.keeps {P : Run σ → Prop} {run later : Run σ} (h : Reaches setting run later)
    (hstep : ∀ {run next}, Step setting run next → P run → P next) (hrun : P run) :
    P later := by
  induction h with
  | refl => exact hrun
  | tail _ hnext ih => exact hstep hnext ih

theorem reaches_verifySources (setting : Setting σ) (group : Group) (sources : List Source)
    (run : Run σ) : Reaches setting run (verifySources setting group sources run).1 := by
  -- each source is one step, whether or not it is the last one
  induction sources generalizing run with
  | nil => exact .refl
  | cons source sources ih =>
    have hfirst : Reaches setting run (verifySource setting group source run).1 :=
      .single (.verify group source run)
    simp only [verifySources]
    split
    · exact hfirst.trans (ih _)
    · exact hfirst

/-- What the verifier keeps of the state is kept while sources are verified. -/
theorem verifySources_keeps {P : σ → Prop}
    (h : ∀ {state} (invocation : Invocation), P state → P (setting.verifier.run invocation state).2)
    (group : Group) (sources : List Source) {run : Run σ} (hrun : P run.state) :
    P (verifySources setting group sources run).1.state := by
  induction sources generalizing run with
  | nil => exact hrun
  | cons source sources ih =>
    have hfirst : P (verifySource setting group source run).1.state := h _ hrun
    simp only [verifySources]
    split
    · exact ih hfirst
    · exact hfirst

theorem reaches_visitGroup (setting : Setting σ) (group : Group) (run : Run σ) :
    Reaches setting run (visitGroup setting group run).1 := by
  have hannounced : Reaches setting run (announce setting group run).1 :=
    .single (.announce group run)
  unfold visitGroup
  split
  · next stopped _ h => rwa [h] at hannounced
  · next announced h =>
    rw [h] at hannounced
    have hopened : Reaches setting announced (openGroup setting group announced).1 :=
      .single (.openGroup group announced)
    split
    · next stopped _ h' =>
      rw [h'] at hopened
      exact hannounced.trans hopened
    · next opened sources h' =>
      rw [h'] at hopened
      exact (hannounced.trans hopened).trans (reaches_verifySources setting group sources opened)

/-- A run takes nothing but steps. -/
theorem reaches_visitGroups (setting : Setting σ) (groups : List Group) (run : Run σ) :
    Reaches setting run (visitGroups setting groups run).1 := by
  induction groups generalizing run with
  | nil => exact .refl
  | cons group groups ih =>
    have hfirst := reaches_visitGroup setting group run
    rcases hvisit : visitGroup setting group run with ⟨visited, _ | failure⟩
    · rw [hvisit] at hfirst
      rw [visitGroups_cons_of_none hvisit]
      exact hfirst.trans (ih visited)
    · rw [hvisit] at hfirst
      rwa [visitGroups_cons_of_some hvisit]

/-- What every step keeps, and telling does not touch, is kept by a run from its start. -/
theorem execute_keeps {P : Run σ → Prop} {root : Path} {state : σ}
    (hstep : ∀ {run next}, Step setting run next → P run → P next)
    (hemit : ∀ {run} (events : List Event), P run → P (run.emit events)) (hrun : P { state }) :
    P (execute setting root state).1 := by
  unfold execute
  cases setting.tree.checkRoot root state with
  | error failure => exact hrun
  | ok checked =>
    cases setting.tree.listGroups root state with
    | error failure => exact hrun
    | ok listing =>
      -- what was passed over in the listing is told before the first group
      have hvisited := (reaches_visitGroups setting (listing.kept.filterMap Group.ofPath?)
        { state, trace := listing.events }).keeps hstep (hemit listing.events hrun)
      dsimp only
      rcases hvisit : visitGroups setting (listing.kept.filterMap Group.ofPath?)
          { state, trace := listing.events } with ⟨visited, _ | failure⟩ <;> rw [hvisit] at hvisited
      · exact hemit _ hvisited
      · exact hvisited

/-! ## Reports along the way -/

theorem report_announce_of_none {group : Group} {run announced : Run σ}
    (h : announce setting group run = (announced, none)) :
    announced.report = run.report.recordGroup := by
  -- an announcement that fails is none
  rcases announce_cases setting group run with ⟨cause, _, heq⟩ | ⟨_, heq⟩ <;> rw [heq] at h
  · cases h
  · cases h
    rfl

@[simp] theorem report_openGroup (setting : Setting σ) (group : Group) (run : Run σ) :
    (openGroup setting group run).1.report = run.report := by
  cases hlist : setting.tree.listFiles group.path run.state with
  | error failure => rw [openGroup_of_error hlist]
  | ok listing =>
    by_cases hsources : sourcesIn setting listing = []
    · rw [openGroup_of_nil hlist hsources]
      rfl
    · rw [openGroup_of_ne_nil hlist hsources]
      rfl

/-- Opening a group changes the state by making its directory, if at all. -/
theorem state_openGroup (setting : Setting σ) (group : Group) (run : Run σ) :
    (openGroup setting group run).1.state = run.state ∨
      (openGroup setting group run).1.state =
        (setting.tree.ensureDir (setting.config.layout.outputDir group.name) run.state).2 := by
  cases hlist : setting.tree.listFiles group.path run.state with
  | error failure =>
    rw [openGroup_of_error hlist]
    exact Or.inl rfl
  | ok listing =>
    by_cases hsources : sourcesIn setting listing = []
    · rw [openGroup_of_nil hlist hsources]
      exact Or.inl rfl
    · rw [openGroup_of_ne_nil hlist hsources]
      exact Or.inr rfl

/-- The outcome that a run records for a source that was verified. -/
def outcomeOf (setting : Setting σ) (group : Group) (source : Source) (status : Status) :
    Outcome :=
  ⟨group.name, source.path, setting.config.layout.target group.name source.stem, status⟩

theorem report_verifySource (setting : Setting σ) (group : Group) (source : Source)
    (run : Run σ) :
    (verifySource setting group source run).1.report =
      run.report.record
        (outcomeOf setting group source (verifySource setting group source run).2) := rfl

theorem consistent_step {run next : Run σ} (h : Step setting run next)
    (hrun : run.report.Consistent) : next.report.Consistent := by
  cases h with
  | announce group =>
    rcases announce_cases setting group run with ⟨cause, _, heq⟩ | ⟨_, heq⟩ <;> rw [heq]
    · exact hrun
    · exact hrun.recordGroup
  | openGroup group => rwa [report_openGroup]
  | verify group source => exact hrun.record _

theorem consistent_execute (setting : Setting σ) (root : Path) (state : σ) :
    (execute setting root state).1.report.Consistent :=
  execute_keeps consistent_step (fun _ hrun => hrun) .empty

/-- Outcomes are only added. -/
theorem outcomes_prefix_step {run next : Run σ} (h : Step setting run next) :
    run.report.outcomes <+: next.report.outcomes := by
  cases h with
  | announce group =>
    rcases announce_cases setting group run with ⟨cause, _, heq⟩ | ⟨_, heq⟩
    · simp [heq]
    · simp [heq, Report.recordGroup]
  | openGroup group => simp
  | verify group source => exact List.prefix_append _ _

/-- What was told stays told. -/
theorem trace_prefix_step {run next : Run σ} (h : Step setting run next) :
    run.trace <+: next.trace := by
  cases h with
  | announce group =>
    rcases announce_cases setting group run with ⟨cause, _, heq⟩ | ⟨_, heq⟩ <;> simp [heq]
  | openGroup group =>
    cases hlist : setting.tree.listFiles group.path run.state with
    | error failure => simp [openGroup_of_error hlist]
    | ok listing =>
      by_cases hsources : sourcesIn setting listing = []
      · rw [openGroup_of_nil hlist hsources]
        exact List.prefix_append _ _
      · rw [openGroup_of_ne_nil hlist hsources]
        exact List.prefix_append _ _
  | verify group source => exact (List.prefix_append _ _).trans (List.prefix_append _ _)

theorem Reaches.outcomes_extend {run later : Run σ} (h : Reaches setting run later) :
    run.report.outcomes <+: later.report.outcomes :=
  h.keeps (P := fun stage => run.report.outcomes <+: stage.report.outcomes)
    (fun hstep hstage => hstage.trans (outcomes_prefix_step hstep)) List.prefix_rfl

theorem Reaches.trace_extend {run later : Run σ} (h : Reaches setting run later) :
    run.trace <+: later.trace :=
  h.keeps (P := fun stage => run.trace <+: stage.trace)
    (fun hstep hstage => hstage.trans (trace_prefix_step hstep)) List.prefix_rfl

@[simp] theorem groupsVisited_verifySources (setting : Setting σ) (group : Group)
    (sources : List Source) (run : Run σ) :
    (verifySources setting group sources run).1.report.groupsVisited =
      run.report.groupsVisited := by
  induction sources generalizing run with
  | nil => rfl
  | cons source sources ih =>
    simp only [verifySources]
    split
    · exact ih _
    · rfl

theorem groupsVisited_visitGroup {group : Group} {run visited : Run σ}
    (h : visitGroup setting group run = (visited, none)) :
    visited.report.groupsVisited = run.report.groupsVisited + 1 := by
  unfold visitGroup at h
  split at h
  · cases h
  · next announced hannounced =>
    split at h
    · cases h
    · next opened sources hopened =>
      have hkept := report_openGroup setting group announced
      have hlast := groupsVisited_verifySources setting group sources opened
      rw [hopened] at hkept
      rw [h, hkept, report_announce_of_none hannounced] at hlast
      exact hlast

/-! ## What stops a run -/

/-- A source stops a run only with the report of that run in hand. -/
theorem verifySources_stop {group : Group} {sources : List Source} {run stopped : Run σ}
    {failure : Failure} (h : verifySources setting group sources run = (stopped, some failure)) :
    ∃ source details, failure = .verifier source details stopped.report := by
  induction sources generalizing run with
  | nil => cases h
  | cons source sources ih =>
    simp only [verifySources] at h
    split at h
    · exact ih h
    · cases h
      exact ⟨_, _, rfl⟩

/-- The failures that come from outside: progress that cannot be told, a group that cannot be
listed, an output directory that cannot be made. -/
inductive Raised (setting : Setting σ) : Failure → Prop
  | tell (cause : SystemError) : Raised setting (.system cause)
  | listFiles {path : Path} {state : σ} {failure : Failure}
    (h : setting.tree.listFiles path state = .error failure) : Raised setting failure
  | ensureDir {dir : Path} {state : σ} {failure : Failure}
    (h : (setting.tree.ensureDir dir state).1 = .error failure) : Raised setting failure

theorem raised_of_openGroup {group : Group} {run stopped : Run σ} {failure : Failure}
    (h : openGroup setting group run = (stopped, .error failure)) : Raised setting failure := by
  cases hlist : setting.tree.listFiles group.path run.state with
  | error cause =>
    rw [openGroup_of_error hlist] at h
    cases h
    exact .listFiles hlist
  | ok listing =>
    by_cases hsources : sourcesIn setting listing = []
    · rw [openGroup_of_nil hlist hsources] at h
      cases h
    · rw [openGroup_of_ne_nil hlist hsources] at h
      obtain ⟨_, hmade⟩ := Prod.mk.inj h
      cases hdir : (setting.tree.ensureDir (setting.config.layout.outputDir group.name)
          run.state).1 with
      | error cause =>
        rw [hdir] at hmade
        cases hmade
        exact .ensureDir hdir
      | ok made =>
        rw [hdir] at hmade
        cases hmade

theorem visitGroup_stop {group : Group} {run stopped : Run σ} {failure : Failure}
    (h : visitGroup setting group run = (stopped, some failure)) :
    Raised setting failure ∨
      ∃ source details, failure = .verifier source details stopped.report := by
  unfold visitGroup at h
  split at h
  · next hannounced =>
    rcases announce_cases setting group run with ⟨cause, _, heq⟩ | ⟨_, heq⟩ <;>
      rw [heq] at hannounced
    · cases hannounced
      cases h
      exact Or.inl (.tell cause)
    · cases hannounced
  · split at h
    · next hopened =>
      cases h
      exact Or.inl (raised_of_openGroup hopened)
    · exact Or.inr (verifySources_stop h)

/-- A run is stopped by something outside, or by a source, and then with its report in hand. -/
theorem visitGroups_stop {groups : List Group} {run stopped : Run σ} {failure : Failure}
    (h : visitGroups setting groups run = (stopped, some failure)) :
    Raised setting failure ∨
      ∃ source details, failure = .verifier source details stopped.report := by
  induction groups generalizing run with
  | nil => cases h
  | cons group groups ih =>
    rcases hvisit : visitGroup setting group run with ⟨visited, _ | cause⟩
    · rw [visitGroups_cons_of_none hvisit] at h
      exact ih h
    · rw [visitGroups_cons_of_some hvisit] at h
      cases h
      exact visitGroup_stop hvisit

end Batch

end BatchVerify
