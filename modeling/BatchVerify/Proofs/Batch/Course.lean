import BatchVerify.Proofs.Batch.InStep

/-!
# The course of a run

A run visits the groups of its root in order, and in each of them asks the verifier about its
sources in order, as far as it gets. `Setting.recorded` keeps a record of what a run does to the
world; the record changes nothing (`Batch.execute_recorded`). Report, progress and record of any run
are those of its visits, one after the other (`Batch.execute_course`); so its progress are the paths of
the first groups, as many as it counts (`Batch.progressText_execute`).
-/

namespace BatchVerify

variable {σ : Type}

/-- What a run does to the world. -/
inductive Effect where
  /-- An output directory was made, or was there. -/
  | ensured (dir : Path)
  /-- The verifier was asked and answered. -/
  | verified (invocation : Invocation) (status : Status)
  deriving DecidableEq, Repr

namespace Effect

/-- The directory that was made. -/
def dir? : Effect → Option Path
  | .ensured dir => some dir
  | .verified .. => none

/-- What the verifier was asked and how it answered. -/
def answer? : Effect → Option (Invocation × Status)
  | .ensured _ => none
  | .verified invocation status => some (invocation, status)

end Effect

/-- The setting of a run that keeps a record of its effects. -/
def Setting.recorded (setting : Setting σ) : Setting (σ × List Effect) where
  tree :=
    { checkRoot := fun path state => setting.tree.checkRoot path state.1
      listGroups := fun path state => setting.tree.listGroups path state.1
      listFiles := fun path state => setting.tree.listFiles path state.1
      ensureDir := fun dir state =>
        let made := setting.tree.ensureDir dir state.1
        (made.1, (made.2, state.2 ++ if made.1.isOk then [.ensured dir] else [])) }
  verifier :=
    { run := fun invocation state =>
        let answer := setting.verifier.run invocation state.1
        (answer.1, (answer.2, state.2 ++ [.verified invocation answer.1.status])) }
  config := setting.config
  tell line state :=
    let told := setting.tell line state.1
    (told.1, (told.2, state.2))

/-- What holds of a state at the start of a run holds all along. -/
structure Setting.Keeps (setting : Setting σ) (sound : σ → Prop) : Prop where
  ensureDir : ∀ {state} (dir : Path), sound state → sound (setting.tree.ensureDir dir state).2
  verify : ∀ {state} (invocation : Invocation), sound state →
    sound (setting.verifier.run invocation state).2
  tell : ∀ {state} (line : String), sound state → sound (setting.tell line state).2

theorem Setting.Keeps.recorded {setting : Setting σ} {sound : σ → Prop} (h : setting.Keeps sound) :
    setting.recorded.Keeps fun state => sound state.1 where
  ensureDir dir hstate := h.ensureDir dir hstate
  verify invocation hstate := h.verify invocation hstate
  tell line hstate := h.tell line hstate

theorem Setting.recorded_inStep (setting : Setting σ) :
    setting.recorded.InStep (fun state plain => state.1 = plain) some setting where
  config := rfl
  checkRoot := by rintro s _ path rfl; rfl
  listGroups := by rintro s _ path rfl; rfl
  listFiles := by rintro s _ path rfl; rfl
  ensureDir := by rintro s _ dir rfl; exact ⟨rfl, rfl⟩
  verify := by rintro s _ invocation rfl; exact ⟨rfl, rfl⟩
  tell := by rintro s _ line rfl; exact ⟨rfl, rfl⟩

/-- A visit of a group: the sources that the verifier was asked about, with its answers. -/
structure Visit where
  group : Group
  answered : List (Source × Status)

namespace Visit

/-- The outcomes that a visit records. -/
def outcomes (setting : Setting σ) (visit : Visit) : List Outcome :=
  visit.answered.map fun answer => Batch.outcomeOf setting visit.group answer.1 answer.2

/-- What a visit does to the world: unless nothing is verified, the output directory comes first. -/
def effects (setting : Setting σ) (visit : Visit) : List Effect :=
  if visit.answered = [] then []
  else
    .ensured (setting.config.layout.outputDir visit.group.name) ::
      (visit.outcomes setting).map fun outcome =>
        .verified (outcome.invocation setting.config.verifier) outcome.status

/-- The sources of a visit are the first of those that a listing of its group gave. -/
def Listed (setting : Setting σ) (sound : σ → Prop) (visit : Visit) : Prop :=
  visit.answered = [] ∨
    ∃ state listing, sound state ∧
      setting.tree.listFiles visit.group.path state = .ok listing ∧
      visit.answered.map Prod.fst <+: Batch.sourcesIn setting listing

end Visit

namespace Batch

variable {setting : Setting σ} {sound : σ → Prop}

theorem progressLines_append (before after : List Event) :
    progressLines (before ++ after) = progressLines before ++ progressLines after :=
  List.filterMap_append

@[simp] theorem progressLines_listing (listing : Listing) : progressLines listing.events = [] := by
  unfold Listing.events progressLines
  simp

/-- What every step keeps of the state. -/
theorem sound_step (h : setting.Keeps sound) {run next : Run σ} (hstep : Step setting run next)
    (hrun : sound run.state) : sound next.state := by
  cases hstep with
  | announce group =>
    rcases announce_cases setting group run with ⟨cause, _, heq⟩ | ⟨_, heq⟩ <;> rw [heq] <;>
      exact h.tell _ hrun
  | openGroup group =>
    rcases state_openGroup setting group run with hsame | hmade
    · rwa [hsame]
    · rw [hmade]
      exact h.ensureDir _ hrun
  | verify group source => exact h.verify _ hrun

/-! ## Parts of a run that is recorded -/

/-- How a run gets on by some visits. -/
structure Advances (setting : Setting σ) (run later : Run (σ × List Effect))
    (visits : List Visit) : Prop where
  outcomes : later.report.outcomes =
    run.report.outcomes ++ visits.flatMap (Visit.outcomes setting)
  effects : later.state.2 = run.state.2 ++ visits.flatMap (Visit.effects setting)
  counted : later.report.groupsVisited = run.report.groupsVisited + visits.length
  told : progressLines later.trace =
    progressLines run.trace ++ visits.map fun visit => progressLine visit.group

theorem Advances.refl (run : Run (σ × List Effect)) : Advances setting run run [] where
  outcomes := (List.append_nil _).symm
  effects := (List.append_nil _).symm
  counted := rfl
  told := (List.append_nil _).symm

theorem Advances.trans {run later last : Run (σ × List Effect)} {visits visits' : List Visit}
    (h : Advances setting run later visits) (h' : Advances setting later last visits') :
    Advances setting run last (visits ++ visits') where
  outcomes := by rw [h'.outcomes, h.outcomes, List.flatMap_append, List.append_assoc]
  effects := by rw [h'.effects, h.effects, List.flatMap_append, List.append_assoc]
  counted := by rw [h'.counted, h.counted, List.length_append, Nat.add_assoc]
  told := by rw [h'.told, h.told, List.map_append, List.append_assoc]

/-- The verifier is asked about the first sources, and about one at least if there is any. -/
theorem verifySources_answered (setting : Setting σ) (group : Group) (sources : List Source)
    (run : Run (σ × List Effect)) :
    ∃ answered : List (Source × Status), answered.map Prod.fst <+: sources ∧
      (sources ≠ [] → answered ≠ []) ∧
      let later := (verifySources setting.recorded group sources run).1
      later.report.outcomes = run.report.outcomes ++ (Visit.mk group answered).outcomes setting ∧
      later.state.2 = run.state.2 ++ ((Visit.mk group answered).outcomes setting).map
        (fun outcome => .verified (outcome.invocation setting.config.verifier) outcome.status) ∧
      progressLines later.trace = progressLines run.trace := by
  induction sources generalizing run with
  | nil => exact ⟨[], List.prefix_rfl, fun h => absurd rfl h, by simp [verifySources, Visit.outcomes]⟩
  | cons source sources ih =>
    have hfirst : progressLines (verifySource setting.recorded group source run).1.trace =
        progressLines run.trace := by
      unfold verifySource progressLines
      dsimp only
      split_ifs <;> simp [Verification.events]
    let status := (verifySource setting.recorded group source run).2
    simp only [verifySources]
    split_ifs with hgo
    · obtain ⟨answered, hprefix, -, houtcomes, heffects, htold⟩ :=
        ih (verifySource setting.recorded group source run).1
      refine ⟨(source, status) :: answered, ?_, fun _ => List.cons_ne_nil _ _, ?_, ?_, ?_⟩
      · exact List.cons_prefix_cons.mpr ⟨rfl, hprefix⟩
      · rw [houtcomes, report_verifySource, Report.record, List.append_assoc]
        rfl
      · rw [heffects]
        show (run.state.2 ++ [_]) ++ _ = _
        rw [List.append_assoc]
        rfl
      · exact htold.trans hfirst
    · refine ⟨[(source, status)], ?_, fun _ => List.cons_ne_nil _ _, rfl, rfl, hfirst⟩
      exact List.cons_prefix_cons.mpr ⟨rfl, List.nil_prefix⟩

/-- A group is opened with sources after its directory was made, or there is nothing to verify. -/
theorem openGroup_recorded (setting : Setting σ) (group : Group) (run : Run (σ × List Effect)) :
    let opened := openGroup setting.recorded group run
    progressLines opened.1.trace = progressLines run.trace ∧
      ((opened.1.state.2 = run.state.2 ∧ ∀ sources, opened.2 = .ok sources → sources = []) ∨
        ∃ listing, setting.tree.listFiles group.path run.state.1 = .ok listing ∧
          sourcesIn setting listing ≠ [] ∧ opened.2 = .ok (sourcesIn setting listing) ∧
          opened.1.state.2 =
            run.state.2 ++ [.ensured (setting.config.layout.outputDir group.name)]) := by
  have hquiet (listing : Listing) :
      progressLines (listingEvents setting.recorded group listing) = [] := by
    unfold listingEvents
    rw [progressLines_append, progressLines_listing]
    rfl
  have htold (listing : Listing) :
      progressLines (run.trace ++ listingEvents setting.recorded group listing) =
        progressLines run.trace := by
    rw [progressLines_append, hquiet, List.append_nil]
  cases hlist : setting.tree.listFiles group.path run.state.1 with
  | error failure =>
    have hopen : openGroup setting.recorded group run = (run, .error failure) :=
      openGroup_of_error hlist
    rw [hopen]
    exact ⟨rfl, Or.inl ⟨rfl, fun sources h => by cases h⟩⟩
  | ok listing =>
    have hrecorded : setting.recorded.tree.listFiles group.path run.state = .ok listing := hlist
    by_cases hnil : sourcesIn setting listing = []
    · rw [openGroup_of_nil hrecorded hnil]
      refine ⟨htold listing, Or.inl ⟨rfl, fun sources h => ?_⟩⟩
      exact (Except.ok.inj h).symm
    · rw [openGroup_of_ne_nil hrecorded hnil]
      refine ⟨htold listing, ?_⟩
      rcases hmade : setting.tree.ensureDir (setting.config.layout.outputDir group.name)
        run.state.1 with ⟨_ | _, state⟩
      · left
        simp [Setting.recorded, hmade, Except.isOk, Except.toBool, Except.map]
      · right
        refine ⟨listing, rfl, hnil, ?_⟩
        simp [Setting.recorded, hmade, Except.isOk, Except.toBool, Except.map]
        rfl

/-- What an announcement that is told adds. -/
structure Announced (group : Group) (run announced : Run (σ × List Effect)) : Prop where
  report : announced.report = run.report.recordGroup
  effects : announced.state.2 = run.state.2
  told : progressLines announced.trace = progressLines run.trace ++ [progressLine group]

theorem announced_of_announce {group : Group} {run announced : Run (σ × List Effect)}
    (h : announce setting.recorded group run = (announced, none)) :
    Announced group run announced := by
  rcases announce_cases setting.recorded group run with ⟨cause, _, heq⟩ | ⟨_, heq⟩ <;> rw [heq] at h
  · cases h
  · cases h
    exact ⟨rfl, rfl, progressLines_append _ _⟩

/-- What leaves report, effects and progress as they are leaves the announcement as it is. -/
theorem Announced.of_silent {group : Group} {run announced later : Run (σ × List Effect)}
    (h : Announced group run announced) (hreport : later.report = announced.report)
    (heffects : later.state.2 = announced.state.2)
    (htold : progressLines later.trace = progressLines announced.trace) :
    Announced group run later where
  report := hreport.trans h.report
  effects := heffects.trans h.effects
  told := htold.trans h.told

/-- A group of which nothing is verified is counted and told, and that is all. -/
theorem Announced.advances {group : Group} {run announced : Run (σ × List Effect)}
    (h : Announced group run announced) : Advances setting run announced [⟨group, []⟩] where
  outcomes := by
    rw [h.report]
    simp [Visit.outcomes, Report.recordGroup]
  effects := by
    rw [h.effects]
    simp [Visit.effects]
  counted := by
    rw [h.report]
    rfl
  told := h.told

/-- A visit gets as far as the group lets it: up to the announcement, up to its sources, or up to
one of them. -/
theorem visitGroup_advances (hkeeps : setting.Keeps sound) (group : Group)
    (run : Run (σ × List Effect)) (hrun : sound run.state.1) :
    ∃ visits : List Visit, visits.map Visit.group <+: [group] ∧
      (∀ visit ∈ visits, visit.Listed setting sound) ∧
      Advances setting run (visitGroup setting.recorded group run).1 visits ∧
      ((visitGroup setting.recorded group run).2 = none → visits.map Visit.group = [group]) := by
  rcases hannounce : announce setting.recorded group run with ⟨announced, _ | failure⟩
  · have hannounced := announced_of_announce hannounce
    have hsound : sound announced.state.1 := by
      have hkept := sound_step hkeeps.recorded (.announce group run) hrun
      rwa [hannounce] at hkept
    obtain ⟨htold, hcases⟩ := openGroup_recorded setting group announced
    have hreport := report_openGroup setting.recorded group announced
    rcases hopen : openGroup setting.recorded group announced with ⟨opened, failure | sources⟩ <;>
      rw [hopen] at htold hcases hreport
    · -- the group could not be opened
      rw [visitGroup_of_unopened setting.recorded hannounce hopen]
      obtain ⟨heffects, -⟩ | ⟨_, _, _, hok, _⟩ := hcases
      · have hleft := hannounced.of_silent hreport heffects htold
        exact ⟨[⟨group, []⟩], List.prefix_rfl, by simp [Visit.Listed], hleft.advances, fun _ => rfl⟩
      · cases hok
    · rw [visitGroup_of_opened setting.recorded hannounce hopen]
      obtain ⟨heffects, hnil⟩ | ⟨listing, hlist, hne, hok, heffects⟩ := hcases
      · -- there is nothing to verify in it
        obtain rfl := hnil sources rfl
        have hleft := hannounced.of_silent hreport heffects htold
        exact ⟨[⟨group, []⟩], List.prefix_rfl, by simp [Visit.Listed], hleft.advances, fun _ => rfl⟩
      · obtain rfl : sources = sourcesIn setting listing := Except.ok.inj hok
        obtain ⟨answered, hprefix, hanswered, houtcomes, hverified, hsilent⟩ :=
          verifySources_answered setting group (sourcesIn setting listing) opened
        have hcounted := groupsVisited_verifySources setting.recorded group
          (sourcesIn setting listing) opened
        refine ⟨[⟨group, answered⟩], List.prefix_rfl, ?_, ⟨?_, ?_, ?_, ?_⟩, fun _ => rfl⟩
        · intro visit hvisit
          obtain rfl := List.mem_singleton.mp hvisit
          exact Or.inr ⟨announced.state.1, listing, hsound, hlist, hprefix⟩
        · rw [houtcomes, hreport, hannounced.report]
          simp [Report.recordGroup]
        · rw [hverified, heffects, hannounced.effects, List.append_assoc]
          simp [Visit.effects, hanswered hne]
        · rw [hcounted, hreport, hannounced.report]
          rfl
        · rw [hsilent, htold, hannounced.told]
          rfl
  · rw [visitGroup_of_untold setting.recorded hannounce]
    rcases announce_cases setting.recorded group run with ⟨cause, _, heq⟩ | ⟨_, heq⟩ <;>
      rw [heq] at hannounce <;> cases hannounce
    refine ⟨[], List.nil_prefix, by simp, ⟨?_, ?_, rfl, ?_⟩, fun h => by cases h⟩ <;>
      simp [Setting.recorded]

/-- Visits go through the groups in order, as far as they get. -/
theorem visitGroups_advances (hkeeps : setting.Keeps sound) (groups : List Group)
    (run : Run (σ × List Effect)) (hrun : sound run.state.1) :
    ∃ visits : List Visit, visits.map Visit.group <+: groups ∧
      (∀ visit ∈ visits, visit.Listed setting sound) ∧
      Advances setting run (visitGroups setting.recorded groups run).1 visits := by
  induction groups generalizing run with
  | nil => exact ⟨[], List.prefix_rfl, by simp, Advances.refl run⟩
  | cons group groups ih =>
    obtain ⟨visits, hgroup, hlisted, hadvances, hwhole⟩ :=
      visitGroup_advances hkeeps group run hrun
    have hsound := (reaches_visitGroup setting.recorded group run).keeps
      (P := fun stage => sound stage.state.1) (sound_step hkeeps.recorded) hrun
    rcases hvisit : visitGroup setting.recorded group run with ⟨visited, _ | failure⟩ <;>
      rw [hvisit] at hadvances hwhole hsound
    · rw [visitGroups_cons_of_none hvisit]
      obtain ⟨visits', hgroups, hlisted', hadvances'⟩ := ih visited hsound
      refine ⟨visits ++ visits', ?_, ?_, hadvances.trans hadvances'⟩
      · rw [List.map_append, hwhole rfl, List.singleton_append]
        exact List.cons_prefix_cons.mpr ⟨rfl, hgroups⟩
      · exact List.forall_mem_append.mpr ⟨hlisted, hlisted'⟩
    · rw [visitGroups_cons_of_some hvisit]
      refine ⟨visits, hgroup.trans ?_, hlisted, hadvances⟩
      exact List.cons_prefix_cons.mpr ⟨rfl, List.nil_prefix⟩

/-! ## Whole runs -/

/-- What a run does to the world, in order. -/
def effects (setting : Setting σ) (root : Path) (state : σ) : List Effect :=
  (execute setting.recorded root (state, [])).1.state.2

/-- The record changes nothing. -/
theorem execute_recorded (setting : Setting σ) (root : Path) (state : σ) :
    (execute setting.recorded root (state, [])).1.InStep (fun s t => s.1 = t) some
        (execute setting root state).1 ∧
      (execute setting.recorded root (state, [])).2 = (execute setting root state).2 :=
  execute_inStep setting.recorded_inStep rfl root

/-- The visits that a run over a root is made of. -/
structure Course (setting : Setting σ) (sound : σ → Prop) (root : Path) (state : σ)
    (visits : List Visit) : Prop where
  /-- Groups of the root are visited in order. -/
  groups : visits = [] ∨ ∃ listing, setting.tree.listGroups root state = .ok listing ∧
    visits.map Visit.group <+: listing.kept.filterMap Group.ofPath?
  listed : ∀ visit ∈ visits, visit.Listed setting sound
  outcomes : (execute setting root state).1.report.outcomes =
    visits.flatMap (Visit.outcomes setting)
  effects : effects setting root state = visits.flatMap (Visit.effects setting)
  counted : (execute setting root state).1.report.groupsVisited = visits.length
  told : progressLines (execute setting root state).1.trace =
    visits.map fun visit => progressLine visit.group

/-- What is told at the end of a run is no visit. -/
theorem Advances.finish {run : Run (σ × List Effect)} {visits : List Visit}
    {result : Run (σ × List Effect) × Option Failure} (h : Advances setting run result.1 visits) :
    Advances setting run (finish result).1 visits := by
  obtain ⟨visited, _ | failure⟩ := result
  · refine ⟨h.outcomes, h.effects, h.counted, ?_⟩
    show progressLines (visited.trace ++ [.log (finishedRecord visited.report)]) = _
    rw [progressLines_append, ← h.told]
    exact List.append_nil _
  · exact h

/-- A run that is recorded is made of visits. -/
theorem execute_advances (hkeeps : setting.Keeps sound) {state : σ} (hstate : sound state)
    (root : Path) :
    ∃ visits : List Visit,
      (visits = [] ∨ ∃ listing, setting.tree.listGroups root state = .ok listing ∧
        visits.map Visit.group <+: listing.kept.filterMap Group.ofPath?) ∧
      (∀ visit ∈ visits, visit.Listed setting sound) ∧
      Advances setting { state := (state, []) } (execute setting.recorded root (state, [])).1
        visits := by
  have hroot : setting.recorded.tree.checkRoot root (state, []) =
      setting.tree.checkRoot root state := rfl
  have hgroups : setting.recorded.tree.listGroups root (state, []) =
      setting.tree.listGroups root state := rfl
  unfold execute
  rw [hroot, hgroups]
  cases setting.tree.checkRoot root state with
  | error failure => exact ⟨[], Or.inl rfl, by simp, Advances.refl _⟩
  | ok checked =>
    cases setting.tree.listGroups root state with
    | error failure => exact ⟨[], Or.inl rfl, by simp, Advances.refl _⟩
    | ok listing =>
      obtain ⟨visits, hprefix, hlisted, hadvances⟩ :=
        visitGroups_advances hkeeps (listing.kept.filterMap Group.ofPath?)
          { state := (state, []), trace := listing.events } hstate
      refine ⟨visits, Or.inr ⟨listing, rfl, hprefix⟩, hlisted, Advances.finish ?_⟩
      -- the entries that were passed over are told before the first visit, in the log
      refine ⟨hadvances.outcomes, hadvances.effects, hadvances.counted, ?_⟩
      rw [hadvances.told, progressLines_listing]
      rfl

/-- Every run is made of visits. -/
theorem execute_course (hkeeps : setting.Keeps sound) {state : σ} (hstate : sound state)
    (root : Path) : ∃ visits, Course setting sound root state visits := by
  obtain ⟨visits, hgroups, hlisted, hadvances⟩ := execute_advances hkeeps hstate root
  -- report and trace are those of the run that is recorded
  have hsame := (execute_recorded setting root state).1.eq
  refine ⟨visits, hgroups, hlisted, ?_, ?_, ?_, ?_⟩
  · rw [← hsame, hadvances.outcomes]
    rfl
  · exact hadvances.effects
  · rw [← hsame, hadvances.counted]
    exact Nat.zero_add _
  · rw [← hsame, hadvances.told]
    rfl

/-- A course for which nothing is asked of the states. -/
theorem exists_course (setting : Setting σ) (root : Path) (state : σ) :
    ∃ visits, Course setting (fun _ => True) root state visits := by
  have hkeeps : setting.Keeps fun _ => True :=
    ⟨fun _ _ => trivial, fun _ _ => trivial, fun _ _ => trivial⟩
  exact execute_course hkeeps trivial root

section

variable {root : Path} {state : σ} {visits : List Visit}

/-- The visits of a run are those of the first groups of its root. -/
theorem Course.groups_prefix (h : Course setting sound root state visits) {listing : Listing}
    (hlist : setting.tree.listGroups root state = .ok listing) :
    visits.map Visit.group <+: listing.kept.filterMap Group.ofPath? := by
  rcases h.groups with rfl | ⟨listing', hlist', hprefix⟩
  · exact List.nil_prefix
  · cases hlist.symm.trans hlist'
    exact hprefix

/-- The groups that are visited are the first ones, as many as are counted. -/
theorem Course.progress (h : Course setting sound root state visits) {groups : List Group}
    (hvisits : visits.map Visit.group <+: groups) :
    (execute setting root state).1.report.groupsVisited ≤ groups.length ∧
      progressLines (execute setting root state).1.trace =
        (groups.take (execute setting root state).1.report.groupsVisited).map progressLine := by
  have hlength := hvisits.length_le
  have htake := List.prefix_iff_eq_take.mp hvisits
  rw [List.length_map] at hlength htake
  rw [h.counted, h.told, ← htake, List.map_map]
  exact ⟨hlength, rfl⟩

/-- Whatever its result, a run tells the first groups of its root, each in a line of its own. -/
theorem progressText_execute {listing : Listing}
    (hlist : setting.tree.listGroups root state = .ok listing) :
    progressText (execute setting root state).1.trace =
      String.join (((listing.kept.filterMap Group.ofPath?).take
        (execute setting root state).1.report.groupsVisited).map fun group =>
          group.path.display ++ ":\n") := by
  obtain ⟨visits, hcourse⟩ := exists_course setting root state
  obtain ⟨-, htold⟩ := hcourse.progress (hcourse.groups_prefix hlist)
  exact congrArg String.join htold

end

end Batch

end BatchVerify
