import BatchVerify.Proofs.Batch.Coverage
import BatchVerify.Proofs.Batch.Course
import BatchVerify.Proofs.Batch.PartialReport
import BatchVerify.Proofs.Layout
import BatchVerify.Proofs.Tree.Enumeration

/-!
# The order of outcomes

Over a tree whose listings come in the order of names (`Setting.Orderly`), which both kinds of tree
are (`Setting.Over.orderly`), the outcomes of a run lie two levels below its root
(`Batch.Course.placed`) and come in the strict order of group and file name
(`Batch.Course.pairwise_before`). On a disk they do not hang on the order in which the entries of
directories are read.
-/

namespace BatchVerify

variable {σ : Type}

/-- A tree in memory that additions made, maybe with runs in between. -/
def MemoryTree.Grown (tree : MemoryTree) : Prop :=
  ∃ additions, MemoryTree.Reachable additions tree

/-- The settings that runs take place in, each with the states that its tree can be in: a tree in
memory that nothing but additions and runs change, or any disk. The tree is a part of a larger state,
of which verifier and progress may be parts as well. -/
inductive Setting.Over : Setting σ → (σ → Prop) → Prop
  | memory {setting : Setting σ} (part : σ → MemoryTree) (put : MemoryTree → σ → σ)
    (tree : setting.tree = memoryTree.within part put)
    (part_put : ∀ tree state, part (put tree state) = tree)
    (verify : ∀ invocation state, (part state).Grown →
      (part (setting.verifier.run invocation state).2).Grown)
    (tell : ∀ line state, (part state).Grown → (part (setting.tell line state).2).Grown) :
    Over setting fun state => (part state).Grown
  | disk {setting : Setting σ} (part : σ → Disk) (put : Disk → σ → σ)
    (tree : setting.tree = diskTree.within part put) : Over setting fun _ => True

/-- Listings come in the order of names, whatever the run does. -/
structure Setting.Orderly (setting : Setting σ) (sound : σ → Prop) : Prop where
  keeps : setting.Keeps sound
  listGroups : ∀ {state path listing}, sound state →
    setting.tree.listGroups path state = .ok listing → path.Entries listing.kept
  listFiles : ∀ {state path listing}, sound state →
    setting.tree.listFiles path state = .ok listing → path.Entries listing.kept

namespace Setting.Over

variable {setting : Setting σ} {sound : σ → Prop}

theorem known (h : setting.Over sound) : setting.tree.Known := by
  cases h with
  | memory part put tree =>
    rw [tree]
    exact .memory part put
  | disk part put tree =>
    rw [tree]
    exact .disk part put

theorem orderly (h : setting.Over sound) : setting.Orderly sound := by
  cases h with
  | memory part put tree part_put verify tell =>
    refine
      { keeps := ⟨?ensureDir, fun {state} invocation => verify invocation state,
          fun {state} line => tell line state⟩
        listGroups := ?listGroups
        listFiles := ?listFiles }
    case ensureDir =>
      rintro state dir ⟨additions, hreachable⟩
      rw [tree]
      show (part (put ((part state).ensureDir dir).2 state)).Grown
      rw [part_put]
      exact ⟨additions, hreachable.ensureDir dir⟩
    case listGroups =>
      rintro state path listing ⟨additions, hreachable⟩ hlist
      rw [tree] at hlist
      exact hreachable.wellFormed.entries_of_list hlist
    case listFiles =>
      rintro state path listing ⟨additions, hreachable⟩ hlist
      rw [tree] at hlist
      exact hreachable.wellFormed.entries_of_list hlist
  | disk part put tree =>
    refine
      { keeps := ⟨fun _ _ => trivial, fun _ _ => trivial, fun _ _ => trivial⟩
        listGroups := ?listGroups
        listFiles := ?listFiles }
    case listGroups =>
      intro state path listing _ hlist
      rw [tree] at hlist
      exact Disk.entries_of_list hlist
    case listFiles =>
      intro state path listing _ hlist
      rw [tree] at hlist
      exact Disk.entries_of_list hlist

/-- A scripted verifier does not touch the tree beside it. -/
theorem inMemory (config : Config) :
    (Setting.inMemory config).Over fun state => state.1.Grown :=
  .memory Prod.fst (fun changed state => (changed, state.2)) rfl (fun _ _ => rfl)
    (fun _ _ h => h) fun _ _ h => h

end Setting.Over

/-- Where an outcome lies: its source is a file in a group right below the root, with the source
extension behind its stem, and its target is the one of that group and that stem. -/
structure Outcome.Placed (config : Config) (root : Path) (outcome : Outcome) (stem : Bytes) :
    Prop where
  group : ProperName outcome.group
  stemmed : stem ≠ [] ∧ Bytes.slash ∉ stem
  extension : Bytes.dot ∉ Utf8.encode config.layout.sourceExtension
  source : outcome.source.components = root.components ++
    [.name outcome.group, .name (stem ++ Bytes.dot :: Utf8.encode config.layout.sourceExtension)]
  target : outcome.target = config.layout.target outcome.group stem

theorem Outcome.Placed.name? {config : Config} {root : Path} {outcome : Outcome} {stem : Bytes}
    (h : outcome.Placed config root stem) : outcome.source.name? =
      some (stem ++ Bytes.dot :: Utf8.encode config.layout.sourceExtension) := by
  have hlast : outcome.source.components = (root.components ++ [.name outcome.group]) ++
      [.name (stem ++ Bytes.dot :: Utf8.encode config.layout.sourceExtension)] := by
    rw [h.source, List.append_assoc]
    rfl
  exact Path.name?_of_components hlast

theorem Outcome.Placed.stem? {config : Config} {root : Path} {outcome : Outcome} {stem : Bytes}
    (h : outcome.Placed config root stem) : outcome.source.stem? = some stem := by
  have hsplit := splitExtension_eq_iff.mpr ⟨rfl, h.stemmed.1, h.extension⟩
  rw [Path.stem?, h.name?, Option.map_some, hsplit]

/-- An outcome comes before another in the lexicographic order of group name and file name, each
byte by byte. -/
def Outcome.Before (first second : Outcome) : Prop :=
  ∃ name name', first.source.name? = some name ∧ second.source.name? = some name' ∧
    Prod.Lex (· < ·) (· < ·) (first.group, name) (second.group, name')

/-! ## The visits of an orderly run -/

section Visits

variable {setting : Setting σ} {sound : σ → Prop}

/-- What a visit verifies are sources of its group, in order. -/
theorem Visit.Listed.entries {visit : Visit} (hlisted : visit.Listed setting sound)
    (h : setting.Orderly sound) :
    ∃ files, visit.group.path.Entries files ∧
      visit.answered.map Prod.fst <+: files.filterMap fun path =>
        Source.matching? path setting.config.layout.sourceExtension := by
  rcases hlisted with hnil | ⟨before, listing, hbefore, hlist, hprefix⟩
  · rw [hnil]
    exact ⟨[], Path.Entries.nil _, List.prefix_rfl⟩
  · exact ⟨listing.kept, h.listFiles hbefore hlist, hprefix⟩

theorem Visit.pairwise_before {visit : Visit} (hlisted : visit.Listed setting sound)
    (h : setting.Orderly sound) : (visit.outcomes setting).Pairwise Outcome.Before := by
  obtain ⟨files, hfiles, hsources⟩ := hlisted.entries h
  -- files in order of their names, and so the sources among them
  have hsorted : (visit.answered.map Prod.fst).Pairwise fun source source' =>
      ∃ name name', source.path.name? = some name ∧ source'.path.name? = some name' ∧
        name < name' := by
    refine List.Pairwise.sublist hsources.sublist (List.pairwise_filterMap.mpr ?_)
    refine hfiles.ascending.imp ?_
    intro path path' hlt source hsource source' hsource'
    obtain ⟨rfl, hname, -⟩ := Source.matching?_eq_some_iff.mp hsource
    obtain ⟨rfl, hname', -⟩ := Source.matching?_eq_some_iff.mp hsource'
    exact ⟨_, _, hname, hname', hlt hname hname'⟩
  unfold Visit.outcomes
  rw [List.pairwise_map]
  refine (List.pairwise_map.mp hsorted).imp ?_
  rintro answer answer' ⟨name, name', hname, hname', hlt⟩
  exact ⟨name, name', hname, hname', Prod.Lex.right _ hlt⟩

end Visits

/-- An event, unless it is for the log. -/
def Event.unlogged : Event → Option Event
  | .log _ => none
  | event => some event

namespace Batch

variable {setting : Setting σ} {sound : σ → Prop} {root : Path} {state : σ} {visits : List Visit}

theorem Course.entries (hcourse : Course setting sound root state visits)
    (h : setting.Orderly sound) (hstate : sound state) :
    ∃ dirs, root.Entries dirs ∧ visits.map Visit.group <+: dirs.filterMap Group.ofPath? := by
  rcases hcourse.groups with rfl | ⟨listing, hlist, hprefix⟩
  · exact ⟨[], Path.Entries.nil root, List.prefix_rfl⟩
  · exact ⟨listing.kept, h.listGroups hstate hlist, hprefix⟩

/-- Every outcome lies two levels below the root. -/
theorem Course.placed (hcourse : Course setting sound root state visits)
    (h : setting.Orderly sound) (hstate : sound state) {outcome : Outcome}
    (hmem : outcome ∈ (execute setting root state).1.report.outcomes) :
    ∃ stem, outcome.Placed setting.config root stem := by
  rw [hcourse.outcomes] at hmem
  obtain ⟨visit, hvisit, houtcome⟩ := List.mem_flatMap.mp hmem
  obtain ⟨⟨source, status⟩, hanswer, rfl⟩ := List.mem_map.mp houtcome
  -- the group is an entry of the root
  obtain ⟨dirs, hdirs, hgroups⟩ := hcourse.entries h hstate
  obtain ⟨dir, hdir, hgroup⟩ :=
    List.mem_filterMap.mp (hgroups.subset (List.mem_map_of_mem (f := Visit.group) hvisit))
  obtain ⟨rfl, hgroupName⟩ := Group.ofPath?_eq_some_iff.mp hgroup
  -- the source is an entry of the group
  obtain ⟨files, hfiles, hsources⟩ := (hcourse.listed visit hvisit).entries h
  obtain ⟨path, hpath, hsource⟩ :=
    List.mem_filterMap.mp (hsources.subset (List.mem_map_of_mem (f := Prod.fst) hanswer))
  obtain ⟨rfl, hname, hstem, hext⟩ := Source.matching?_eq_some_iff.mp hsource
  refine ⟨source.stem, ?_, Source.stem_of_matching? hsource, hext, ?_, rfl⟩
  · exact Path.proper_of_name? hgroupName
  · show source.path.components = _
    rw [hfiles.below hpath hname, hdirs.below hdir hgroupName, List.append_assoc]
    rfl

/-- The outcomes of a run come in the strict order of group and file name. -/
theorem Course.pairwise_before (hcourse : Course setting sound root state visits)
    (h : setting.Orderly sound) (hstate : sound state) :
    (execute setting root state).1.report.outcomes.Pairwise Outcome.Before := by
  obtain ⟨dirs, hdirs, hgroups⟩ := hcourse.entries h hstate
  have hsorted : (visits.map Visit.group).Pairwise fun group group' => group.name < group'.name := by
    refine List.Pairwise.sublist hgroups.sublist (List.pairwise_filterMap.mpr ?_)
    refine hdirs.ascending.imp ?_
    intro dir dir' hlt group hgroup group' hgroup'
    exact hlt (Group.ofPath?_eq_some_iff.mp hgroup).2 (Group.ofPath?_eq_some_iff.mp hgroup').2
  have hnamed {outcome : Outcome} {visit : Visit} (hvisit : visit ∈ visits)
      (hmem : outcome ∈ visit.outcomes setting) :
      outcome.group = visit.group.name ∧ ∃ name, outcome.source.name? = some name := by
    have hall : outcome ∈ (execute setting root state).1.report.outcomes := by
      rw [hcourse.outcomes]
      exact List.mem_flatMap.mpr ⟨visit, hvisit, hmem⟩
    obtain ⟨stem, hplaced⟩ := hcourse.placed h hstate hall
    obtain ⟨answer, -, rfl⟩ := List.mem_map.mp hmem
    exact ⟨rfl, _, hplaced.name?⟩
  rw [hcourse.outcomes, List.pairwise_flatMap]
  refine ⟨fun visit hvisit => Visit.pairwise_before (hcourse.listed visit hvisit) h, ?_⟩
  -- outcomes of two visits are told apart by their groups
  refine (List.pairwise_map.mp hsorted).imp_of_mem ?_
  intro visit visit' hvisit hvisit' hlt outcome hmem outcome' hmem'
  obtain ⟨hgroup, name, hname⟩ := hnamed hvisit hmem
  obtain ⟨hgroup', name', hname'⟩ := hnamed hvisit' hmem'
  refine ⟨name, name', hname, hname', Prod.Lex.left _ _ ?_⟩
  rw [hgroup, hgroup']
  exact hlt

/-! ## What is handed over -/

/-- The report that a run hands over: the whole one at its end, or the one up to the source that stopped
it. -/
def handedOver : Except Failure Report → Option Report
  | .ok report | .error (.verifier _ _ report) => some report
  | .error _ => none

/-- A run that failed hands over what can be taken out of its failure. -/
theorem handedOver_error (failure : Failure) :
    handedOver (.error failure) = failure.takeReport.1 := by
  cases failure <;> rfl

/-- Only the failure of a source hands over a report. -/
theorem eq_verifier_of_handedOver {failure : Failure} {report : Report}
    (h : handedOver (.error failure) = some report) :
    ∃ source details, failure = .verifier source details report := by
  cases failure with
  | verifier source details carried => exact ⟨source, details, by rw [Option.some.inj h]⟩
  | _ => cases h

/-- What is handed over is what was gathered. -/
theorem report_of_handedOver (htree : setting.tree.Plain) {report : Report}
    (h : handedOver (execute setting root state).2 = some report) :
    (execute setting root state).1.report = report := by
  cases hresult : (execute setting root state).2 with
  | ok whole =>
    rw [hresult] at h
    cases h
    exact report_execute hresult
  | error failure =>
    rw [hresult] at h
    rcases takeReport_of_execute htree hresult with hnone | ⟨source, details, rfl⟩
    · rw [handedOver_error, hnone] at h
      cases h
    · exact Option.some.inj h

/-- What goes for the visits of a run goes for the report that it hands over. -/
theorem course_of_handedOver (hover : setting.Over sound) (hstate : sound state) {report : Report}
    (h : handedOver (execute setting root state).2 = some report) :
    (execute setting root state).1.report = report ∧ setting.Orderly sound ∧
      ∃ visits, Course setting sound root state visits :=
  ⟨report_of_handedOver hover.known.plain h, hover.orderly,
    execute_course hover.orderly.keeps hstate root⟩

/-- The order in which entries are read shows in nothing but the log. -/
theorem execute_asRead {part : σ → Disk} {put : Disk → σ → σ}
    (htree : setting.tree = diskTree.within part put) (enumeration : Enumeration) (root : Path)
    (state : σ) :
    let read := { setting with tree := (diskTreeAsRead enumeration).within part put }
    (execute read root state).1.InStep Eq Event.unlogged (execute setting root state).1 ∧
      (execute read root state).2 = (execute setting root state).2 := by
  -- what a listing tells is for the log
  have hshown (keep : Node → Bool) (path : Path) (disk : Disk) :
      (disk.listAsRead enumeration keep path).map (Listing.shown Event.unlogged) =
        (disk.list keep path).map (Listing.shown Event.unlogged) := by
    have hview (listing : Listing) : listing.shown Event.unlogged = (listing.kept, []) := by
      simp [Listing.shown, Listing.events, Event.unlogged]
    have hkept := Disk.map_kept_listAsRead enumeration keep path disk
    rcases hread : disk.listAsRead enumeration keep path with failure | listing <;>
      rcases hlist : disk.list keep path with failure' | listing' <;> rw [hread, hlist] at hkept
    · exact congrArg Except.error (Except.error.inj hkept)
    · cases hkept
    · cases hkept
    · show Except.ok _ = Except.ok _
      rw [hview, hview, Except.ok.inj hkept]
  refine execute_inStep ?_ rfl root
  refine
    { config := rfl
      checkRoot := ?checkRoot
      listGroups := ?listGroups
      listFiles := ?listFiles
      ensureDir := ?ensureDir
      verify := ?verify
      tell := ?tell }
  case checkRoot =>
    rintro s _ path rfl
    rw [htree]
    rfl
  case listGroups =>
    rintro s _ path rfl
    rw [htree]
    exact hshown _ path (part s)
  case listFiles =>
    rintro s _ path rfl
    rw [htree]
    exact hshown _ path (part s)
  case ensureDir =>
    rintro s _ dir rfl
    rw [htree]
    exact ⟨rfl, rfl⟩
  case verify =>
    rintro s _ invocation rfl
    exact ⟨rfl, rfl⟩
  case tell =>
    rintro s _ line rfl
    exact ⟨rfl, rfl⟩

/-- The outcomes that a run hands over come in the strict order of group and file name. On a disk
they are the same in whatever order the entries of directories are read. -/
theorem execute_in_order :
    (∀ {σ : Type} (setting : Setting σ) (sound : σ → Prop) (root : Path) (state : σ)
      (report : Report), setting.Over sound → sound state →
      handedOver (execute setting root state).2 = some report →
      report.outcomes.Pairwise Outcome.Before) ∧
    (∀ {σ : Type} (setting : Setting σ) (part : σ → Disk) (put : Disk → σ → σ) (root : Path)
      (state : σ) (enumeration : Enumeration), setting.tree = diskTree.within part put →
      let read := { setting with tree := (diskTreeAsRead enumeration).within part put }
      handedOver (execute read root state).2 = handedOver (execute setting root state).2 ∧
        (execute read root state).1.report = (execute setting root state).1.report) := by
  constructor
  · intro σ setting sound root state report hover hstate h
    obtain ⟨rfl, horderly, visits, hcourse⟩ := course_of_handedOver hover hstate h
    exact hcourse.pairwise_before horderly hstate
  · intro σ setting part put root state enumeration htree
    obtain ⟨hstep, hresult⟩ := execute_asRead htree enumeration root state
    exact ⟨congrArg handedOver hresult, hstep.report⟩

/-- A disk on which neither groups nor files come in the order of their names. -/
def shuffledDisk : Disk where
  nodes :=
    [ ([Utf8.encode "data"], .directory),
      ([Utf8.encode "beta", Utf8.encode "data"], .directory),
      ([Utf8.encode "b.bpl", Utf8.encode "beta", Utf8.encode "data"], .file {}),
      ([Utf8.encode "alpha", Utf8.encode "data"], .directory),
      ([Utf8.encode "a.bpl", Utf8.encode "alpha", Utf8.encode "data"], .file {}),
      ([Utf8.encode "a-1.bpl", Utf8.encode "alpha", Utf8.encode "data"], .file {}) ]

/-- Three sources in two groups come in order, also when every directory is read backwards. -/
theorem execute_in_order_shuffled :
    let setting := Setting.apart diskTree scriptedVerifier {}
    let start := (shuffledDisk, ({} : ScriptedVerifier))
    let backwards : Enumeration := ⟨fun _ _ => List.reverse, fun _ _ => List.reverse_perm⟩
    let read := { setting with
      tree := (diskTreeAsRead backwards).within Prod.fst fun changed state => (changed, state.2) }
    ∃ report, handedOver (execute read (Path.ofString "data") start).2 = some report ∧
      report.outcomes.length = 3 ∧ report.outcomes.Pairwise Outcome.Before := by
  intro setting start backwards read
  have hsorted : handedOver (execute setting (Path.ofString "data") start).2 =
      some (execute setting (Path.ofString "data") start).1.report ∧
      (execute setting (Path.ofString "data") start).1.report.outcomes.length = 3 := by
    -- merging does not evaluate in the kernel, inserting does
    simp only [setting, start, Setting.apart, sideBySide, SourceTree.within, diskTree,
      Disk.listGroups, Disk.listFiles, Disk.list, Disk.sortedNames, Disk.mergeSort_nameLe]
    decide +kernel
  have hread := execute_in_order.2 setting Prod.fst (fun changed state => (changed, state.2))
    (Path.ofString "data") start backwards rfl
  refine ⟨_, hread.1.trans hsorted.1, hsorted.2, ?_⟩
  exact execute_in_order.1 setting (fun _ => True) (Path.ofString "data") start _
    (.disk Prod.fst (fun changed state => (changed, state.2)) rfl) trivial hsorted.1

end Batch

end BatchVerify
