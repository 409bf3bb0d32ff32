import BatchVerify.Proofs.Batch.Frame
import BatchVerify.Proofs.Disk.Listing

/-!
# Running again

Without links, a run that gets through leaves every group settled (`Batch.settled_of_visitGroups`): its
sources are what they were when it was visited, its output directory is there if it has any, and the
verifier lets them pass. Visiting a settled group changes nothing (`Batch.visitGroups_of_settled`), and
groups that are new have no sources. So the same run, made again at once, has the same outcomes and
leaves the disk as it is (`Batch.execute_again`).
-/

namespace BatchVerify

/-- What a run over a disk with a scripted verifier depends on. -/
abbrev Setting.onDisk (config : Config) : Setting (Disk × ScriptedVerifier) :=
  Setting.apart diskTree scriptedVerifier config

namespace Batch

variable {config : Config} {verifier : ScriptedVerifier} {disk after : Disk} {group : Group}
  {groups : List Group} {run visited : Run (Disk × ScriptedVerifier)} {root : Path}

/-- The sources that a group has on a disk. -/
def sourcesOn (config : Config) (disk : Disk) (group : Group) : List Source :=
  match disk.listFiles group.path with
  | .ok listing => sourcesIn (Setting.onDisk config) listing
  | .error _ => []

/-- The outcomes of a group whose sources are all verified. -/
def outcomesOn (config : Config) (verifier : ScriptedVerifier) (disk : Disk) (group : Group) :
    List Outcome :=
  (sourcesOn config disk group).map fun source =>
    outcomeOf (Setting.onDisk config) group source (verifier.statusOf source.path)

/-- A group that can be visited to its end while the disk stays as it is. -/
structure Settled (config : Config) (verifier : ScriptedVerifier) (disk : Disk) (group : Group) :
    Prop where
  listed : ∃ listing, disk.listFiles group.path = .ok listing
  made : sourcesOn config disk group ≠ [] →
    disk.isDirectory (config.layout.outputDir group.name) = true
  passes : config.run.onError = .keepGoing ∨
    ∀ source ∈ sourcesOn config disk group, (verifier.statusOf source.path).isSuccess = true

theorem sourcesOn_of_listed {listing : Listing} (h : disk.listFiles group.path = .ok listing) :
    sourcesOn config disk group = sourcesIn (Setting.onDisk config) listing := by
  rw [sourcesOn, h]

/-- Groups have the same sources where the same files are kept. -/
theorem sourcesOn_of_kept {listing listing' : Listing} (h : disk.listFiles group.path = .ok listing)
    (h' : after.listFiles group.path = .ok listing') (hkept : listing'.kept = listing.kept) :
    sourcesOn config after group = sourcesOn config disk group := by
  rw [sourcesOn_of_listed h, sourcesOn_of_listed h', sourcesIn, hkept, sourcesIn]

theorem grows_onDisk (h : Reaches (Setting.onDisk config) run visited) :
    run.state.1.Grows visited.state.1 := by
  have hover : Reaches (Setting.overDisk scriptedVerifier config) run visited := h
  exact grows_of_reaches hover

/-! ## A run that gets through -/

/-- What a visit that gets through a group has done. -/
structure Through (config : Config) (verifier : ScriptedVerifier) (group : Group)
    (run visited : Run (Disk × ScriptedVerifier)) : Prop where
  listed : ∃ listing, run.state.1.listFiles group.path = .ok listing
  made : sourcesOn config run.state.1 group ≠ [] →
    visited.state.1.isDirectory (config.layout.outputDir group.name) = true
  passes : config.run.onError = .keepGoing ∨
    ∀ source ∈ sourcesOn config run.state.1 group, (verifier.statusOf source.path).isSuccess = true
  outcomes : visited.report.outcomes =
    run.report.outcomes ++ outcomesOn config verifier run.state.1 group

theorem through_of_visitGroup (hproper : ProperName group.name)
    (hscript : run.state.2.script = verifier.script)
    (h : visitGroup (Setting.onDisk config) group run = (visited, none)) :
    Through config verifier group run visited := by
  cases hlist : run.state.1.listFiles group.path with
  | error failure =>
    have hstop := visitGroup_apart_of_error diskTree scriptedVerifier config hlist
    rw [h] at hstop
    cases hstop
  | ok listing =>
    have hsources : sourcesOn config run.state.1 group = sourcesIn (Setting.onDisk config) listing :=
      sourcesOn_of_listed hlist
    by_cases hnil : sourcesIn (Setting.onDisk config) listing = []
    · -- there is nothing to verify
      rw [visitGroup_apart_of_nil diskTree scriptedVerifier config hlist hnil] at h
      cases h
      rw [hnil] at hsources
      refine ⟨⟨listing, hlist⟩, fun hne => absurd hsources hne, Or.inr ?_, ?_⟩
      · rw [hsources]
        exact List.forall_mem_nil _
      · rw [outcomesOn, hsources]
        exact (List.append_nil _).symm
    · rcases hmade : diskTree.ensureDir (config.layout.outputDir group.name) run.state.1 with
        ⟨failure | ⟨⟩, after⟩
      · have hstop := visitGroup_apart_of_refused diskTree scriptedVerifier config hlist hnil hmade
        rw [h] at hstop
        cases hstop
      · rw [visitGroup_apart_of_made diskTree scriptedVerifier config hlist hnil hmade,
          ← hsources] at h
        -- the directory is made, and the sources do not touch it
        have hstate : visited.state.1 = after := by
          rw [← show _ = visited from congrArg Prod.fst h]
          exact verifySources_keeps (P := fun state : Disk × ScriptedVerifier => state.1 = after)
            (fun _ hstate => hstate) group _ rfl
        refine ⟨⟨listing, hlist⟩, fun _ => ?_, ?_, ?_⟩
        · have hthere := Disk.isDirectory_ensureDir (config.layout.bytes_outputDir_ne_nil hproper)
            (show (diskTree.ensureDir (config.layout.outputDir group.name) run.state.1).1.isOk = true by
              rw [hmade]; rfl)
          rw [hstate, ← show _ = after from congrArg Prod.snd hmade]
          exact hthere
        · exact (verifySources_eq_none_iff (by exact hscript)).mp (congrArg Prod.snd h)
        · rw [outcomes_verifySources h, outcomesOn, ← ScriptedVerifier.statusOf_congr hscript]
          rfl

/-- While the disk grows, what a visit has settled stays settled. -/
theorem Through.settled (h : Through config verifier group run visited) (hlinkless : after.Linkless)
    (hgrows : run.state.1.Grows visited.state.1) (hgrows' : visited.state.1.Grows after)
    (hdir : run.state.1.lookUp group.path = .ok .directory) :
    Settled config verifier after group ∧
      outcomesOn config verifier run.state.1 group = outcomesOn config verifier after group := by
  obtain ⟨listing, listing', hlist, hlist', hkept⟩ :=
    hlinkless.listFiles_grown (hgrows.trans hgrows') hdir
  have hsources : sourcesOn config after group = sourcesOn config run.state.1 group :=
    sourcesOn_of_kept hlist hlist' hkept
  refine ⟨⟨⟨listing', hlist'⟩, fun hne => ?_, ?_⟩, ?_⟩
  · rw [hsources] at hne
    exact hgrows'.isDirectory (h.made hne)
  · rw [hsources]
    exact h.passes
  · rw [outcomesOn, outcomesOn, hsources]

/-- How a run gets through some groups, as the disk is at its end or later. -/
structure ThroughAll (config : Config) (verifier : ScriptedVerifier) (after : Disk) (groups : List Group)
    (run visited : Run (Disk × ScriptedVerifier)) : Prop where
  settled : ∀ group ∈ groups, Settled config verifier after group
  outcomes : visited.report.outcomes =
    run.report.outcomes ++ groups.flatMap (outcomesOn config verifier after)
  counted : visited.report.groupsVisited = run.report.groupsVisited + groups.length

theorem throughAll_of_visitGroups (run : Run (Disk × ScriptedVerifier)) (hlinkless : after.Linkless)
    (hgroups : ∀ group ∈ groups, ProperName group.name ∧
      run.state.1.lookUp group.path = .ok .directory)
    (hscript : run.state.2.script = verifier.script)
    (h : visitGroups (Setting.onDisk config) groups run = (visited, none))
    (hgrows : visited.state.1.Grows after) :
    ThroughAll config verifier after groups run visited := by
  induction groups generalizing run with
  | nil =>
    cases h
    exact ⟨by simp, by simp, rfl⟩
  | cons group groups ih =>
    obtain ⟨⟨hproper, hdir⟩, hrest⟩ := List.forall_mem_cons.mp hgroups
    have hreaches := reaches_visitGroup (Setting.onDisk config) group run
    rcases hvisit : visitGroup (Setting.onDisk config) group run with ⟨first, _ | failure⟩
    · rw [hvisit] at hreaches
      rw [visitGroups_cons_of_none hvisit] at h
      have hreaches' := reaches_visitGroups (Setting.onDisk config) groups first
      rw [h] at hreaches'
      have hgrows₁ := grows_onDisk hreaches
      have hgrows₂ := grows_onDisk hreaches'
      obtain ⟨hsettled, houtcomes⟩ := (through_of_visitGroup hproper hscript hvisit).settled hlinkless
        hgrows₁ (hgrows₂.trans hgrows) hdir
      have hlater := ih first (fun g hg => ⟨(hrest g hg).1, hgrows₁.lookUp (hrest g hg).2⟩)
        (hreaches.keeps (fun hstep hs => (script_step hstep).trans hs) hscript) h
      refine ⟨List.forall_mem_cons.mpr ⟨hsettled, hlater.settled⟩, ?_, ?_⟩
      · rw [hlater.outcomes, (through_of_visitGroup hproper hscript hvisit).outcomes, houtcomes,
          List.flatMap_cons, List.append_assoc]
      · rw [hlater.counted, groupsVisited_visitGroup hvisit, List.length_cons]
        omega
    · rw [visitGroups_cons_of_some hvisit] at h
      cases h

/-! ## A run over settled groups -/

/-- A settled group is visited to its end, and the disk stays as it is. -/
theorem exists_visitGroup_of_settled (h : Settled config verifier run.state.1 group)
    (hscript : run.state.2.script = verifier.script) :
    ∃ visited, visitGroup (Setting.onDisk config) group run = (visited, none) ∧
      visited.state.1 = run.state.1 := by
  obtain ⟨listing, hlist⟩ := h.listed
  have hsources : sourcesOn config run.state.1 group = sourcesIn (Setting.onDisk config) listing :=
    sourcesOn_of_listed hlist
  by_cases hnil : sourcesIn (Setting.onDisk config) listing = []
  · exact ⟨_, visitGroup_apart_of_nil diskTree scriptedVerifier config hlist hnil, rfl⟩
  · have hmade : diskTree.ensureDir (config.layout.outputDir group.name) run.state.1 =
        (.ok (), run.state.1) := by
      show run.state.1.ensureDir _ = _
      rw [Disk.ensureDir, Disk.makeDirectories_of_isDirectory (h.made (hsources ▸ hnil))]
    rw [visitGroup_apart_of_made diskTree scriptedVerifier config hlist hnil hmade, ← hsources]
    refine ⟨_, Prod.ext rfl ((verifySources_eq_none_iff (by exact hscript)).mpr h.passes), ?_⟩
    exact verifySources_keeps (P := fun state : Disk × ScriptedVerifier => state.1 = run.state.1)
      (fun _ hstate => hstate) group _ rfl

theorem exists_visitGroups_of_settled (run : Run (Disk × ScriptedVerifier))
    (h : ∀ group ∈ groups, Settled config verifier run.state.1 group)
    (hscript : run.state.2.script = verifier.script) :
    ∃ visited, visitGroups (Setting.onDisk config) groups run = (visited, none) ∧
      visited.state.1 = run.state.1 := by
  induction groups generalizing run with
  | nil => exact ⟨run, rfl, rfl⟩
  | cons group groups ih =>
    obtain ⟨hgroup, hrest⟩ := List.forall_mem_cons.mp h
    obtain ⟨first, hvisit, hstate⟩ := exists_visitGroup_of_settled hgroup hscript
    have hreaches := reaches_visitGroup (Setting.onDisk config) group run
    rw [hvisit] at hreaches
    rw [visitGroups_cons_of_none hvisit, ← hstate]
    refine ih first (fun g hg => hstate ▸ hrest g hg) ?_
    exact hreaches.keeps (fun hstep hs => (script_step hstep).trans hs) hscript

/-! ## The same run again -/

/-- A group without files is settled. -/
theorem settled_of_no_files {listing : Listing} (hlist : disk.listFiles group.path = .ok listing)
    (hnone : listing.kept = []) :
    Settled config verifier disk group ∧ outcomesOn config verifier disk group = [] := by
  have hsources : sourcesOn config disk group = [] := by
    rw [sourcesOn_of_listed hlist, sourcesIn, hnone]
    rfl
  refine ⟨⟨⟨listing, hlist⟩, fun hne => absurd hsources hne, Or.inr ?_⟩, ?_⟩
  · rw [hsources]
    exact List.forall_mem_nil _
  · rw [outcomesOn, hsources]
    rfl

/-- The groups of a root that can be told. -/
theorem lookUp_of_mem_groups {listing : Listing} (hlist : disk.listGroups root = .ok listing)
    (hmem : group ∈ listing.kept.filterMap Group.ofPath?) :
    ProperName group.name ∧ disk.lookUp group.path = .ok .directory := by
  obtain ⟨path, hpath, hgroup⟩ := List.mem_filterMap.mp hmem
  obtain ⟨rfl, hname⟩ := Group.ofPath?_eq_some_iff.mp hgroup
  obtain ⟨node, hlook, hdir⟩ := Disk.lookUp_of_mem_kept hlist hpath
  obtain rfl : node = .directory := of_decide_eq_true hdir
  exact ⟨Path.proper_of_name? hname, hlook⟩

theorem checkRoot_eq_ok_iff : disk.checkRoot root = .ok () ↔ disk.lookUp root = .ok .directory := by
  unfold Disk.checkRoot
  cases disk.lookUp root with
  | error cause => simp
  | ok node => cases node <;> simp

/-- Where the elements that are passed over contribute nothing, they may as well be there. -/
theorem flatMap_filterMap_filter {α β γ : Type} {p : α → Bool} {g : α → Option β} {f : β → List γ}
    {l : List α} (h : ∀ a ∈ l, p a = false → ∀ b, g a = some b → f b = []) :
    ((l.filter p).filterMap g).flatMap f = (l.filterMap g).flatMap f := by
  induction l with
  | nil => rfl
  | cons a l ih =>
    obtain ⟨ha, hl⟩ := List.forall_mem_cons.mp h
    rw [List.filterMap_cons, List.filter_cons]
    cases hp : p a with
    | true =>
      rw [if_pos rfl, List.filterMap_cons]
      cases g a with
      | none => exact ih hl
      | some b => simp only [List.flatMap_cons, ih hl]
    | false =>
      rw [if_neg Bool.false_ne_true, ih hl]
      cases hg : g a with
      | none => rfl
      | some b => simp only [List.flatMap_cons, ha hp b hg, List.nil_append]

/-- Groups that a root has only once a disk has grown have no sources, so they are settled and add no
outcomes. -/
theorem exists_listGroups_settled (hlinkless : after.Linkless) (hgrows : disk.Grows after)
    (hdir : disk.lookUp root = .ok .directory) {listing : Listing}
    (hlist : disk.listGroups root = .ok listing)
    (hsettled : ∀ group ∈ listing.kept.filterMap Group.ofPath?, Settled config verifier after group) :
    ∃ listing', after.listGroups root = .ok listing' ∧
      (∀ group ∈ listing'.kept.filterMap Group.ofPath?, Settled config verifier after group) ∧
      (listing'.kept.filterMap Group.ofPath?).flatMap (outcomesOn config verifier after) =
        (listing.kept.filterMap Group.ofPath?).flatMap (outcomesOn config verifier after) ∧
      (listing.kept.filterMap Group.ofPath?).length ≤ (listing'.kept.filterMap Group.ofPath?).length := by
  obtain ⟨listing₀, listing', hlist₀, hlist', hkept, hnew⟩ := hlinkless.listGroups_grown hgrows hdir
  obtain rfl : listing = listing₀ := Except.ok.inj (hlist.symm.trans hlist₀)
  have hidle {path : Path} (hmem : path ∈ listing'.kept) (hold : disk.isDirectory path = false)
      {group : Group} (hgroup : Group.ofPath? path = some group) :
      Settled config verifier after group ∧ outcomesOn config verifier after group = [] := by
    obtain ⟨rfl, -⟩ := Group.ofPath?_eq_some_iff.mp hgroup
    obtain ⟨files, hfiles, hnone⟩ := hnew _ hmem hold
    exact settled_of_no_files hfiles hnone
  refine ⟨listing', hlist', ?_, ?_, ?_⟩
  · intro group hmem
    obtain ⟨path, hpath, hgroup⟩ := List.mem_filterMap.mp hmem
    cases hold : disk.isDirectory path with
    | true =>
      refine hsettled group (List.mem_filterMap.mpr ⟨path, ?_, hgroup⟩)
      rw [hkept]
      exact List.mem_filter.mpr ⟨hpath, hold⟩
    | false => exact (hidle hpath hold hgroup).1
  · rw [hkept]
    exact (flatMap_filterMap_filter fun path hpath hold group hgroup =>
      (hidle hpath hold hgroup).2).symm
  · rw [hkept]
    exact (List.filter_sublist.filterMap _).length_le

/-- On a disk without links, a run that returned a report, made again at once, returns one with the same
totals and the same outcomes, and leaves the disk exactly as it found it. It may visit more groups. -/
theorem execute_again (config : Config) (verifier : ScriptedVerifier) (root : Path) (disk : Disk)
    (report : Report) (hlinkless : disk.Linkless)
    (h : (execute (Setting.onDisk config) root (disk, verifier)).2 = .ok report) :
    let first := execute (Setting.onDisk config) root (disk, verifier)
    let again := execute (Setting.onDisk config) root first.1.state
    ∃ report', again.2 = .ok report' ∧ report'.processed = report.processed ∧
      report'.succeeded = report.succeeded ∧ report'.failed = report.failed ∧
      report'.outcomes = report.outcomes ∧ report.groupsVisited ≤ report'.groupsVisited ∧
      again.1.state.1 = first.1.state.1 := by
  intro first again
  have hconsistent : first.1.report.Consistent := consistent_execute _ root _
  obtain ⟨listing, visited, hroot, hlist, hvisit, hend, rfl⟩ := exists_of_execute_ok h
  have hdir : disk.lookUp root = .ok .directory := checkRoot_eq_ok_iff.mp hroot
  have hfirst : first.1.state = visited.state ∧ first.1.report = visited.report := by
    rw [show first.1 = _ from hend]
    exact ⟨rfl, rfl⟩
  have hreaches := reaches_visitGroups (Setting.onDisk config) (listing.kept.filterMap Group.ofPath?)
    { state := (disk, verifier), trace := listing.events }
  rw [hvisit] at hreaches
  have hgrows : disk.Grows visited.state.1 := grows_onDisk hreaches
  have hscript : visited.state.2.script = verifier.script :=
    hreaches.keeps (fun hstep hs => (script_step hstep).trans hs) rfl
  have hafter := hlinkless.grows hgrows
  -- what the first run visited is settled on the disk that it left
  have hthrough : ThroughAll config verifier visited.state.1 _ _ visited :=
    throughAll_of_visitGroups { state := (disk, verifier), trace := listing.events } hafter
      (fun group hmem => lookUp_of_mem_groups (by exact hlist) hmem) rfl hvisit (Disk.Grows.refl _)
  obtain ⟨listing', hlist', hsettled, houtcomes, hlength⟩ :=
    exists_listGroups_settled hafter hgrows hdir hlist hthrough.settled
  have hroot' : visited.state.1.checkRoot root = .ok () := checkRoot_eq_ok_iff.mpr (hgrows.lookUp hdir)
  have hagain : again = finish (visitGroups (Setting.onDisk config)
      (listing'.kept.filterMap Group.ofPath?) { state := visited.state, trace := listing'.events }) := by
    show execute _ _ first.1.state = _
    rw [hfirst.1]
    exact execute_apart_of_listed diskTree hroot' hlist' scriptedVerifier config visited.state.2
  obtain ⟨visited', hvisit', hstate'⟩ := exists_visitGroups_of_settled
    { state := visited.state, trace := listing'.events } hsettled hscript
  have hthrough' : ThroughAll config verifier visited.state.1 _ _ visited' :=
    throughAll_of_visitGroups { state := visited.state, trace := listing'.events } hafter
      (fun group hmem => lookUp_of_mem_groups hlist' hmem) hscript hvisit'
      (hstate' ▸ Disk.Grows.refl _)
  have hconsistent' : again.1.report.Consistent := consistent_execute _ root _
  rw [hvisit'] at hagain
  rw [hagain] at hconsistent' ⊢
  have hsame : visited'.report.outcomes = visited.report.outcomes := by
    rw [hthrough'.outcomes, hthrough.outcomes, houtcomes]
  obtain ⟨hprocessed, hsucceeded, hfailed⟩ := (hfirst.2 ▸ hconsistent).totals_eq hconsistent' hsame
  refine ⟨visited'.report, rfl, hprocessed, hsucceeded, hfailed, hsame, ?_, ?_⟩
  · rw [hthrough'.counted, hthrough.counted]
    exact Nat.add_le_add_left hlength _
  · rw [hfirst.1, ← hstate']
    rfl

/-- A group with two sources. -/
def plainDisk : Disk where
  nodes :=
    [ ([Utf8.encode "data"], .directory),
      ([Utf8.encode "alpha", Utf8.encode "data"], .directory),
      ([Utf8.encode "a.bpl", Utf8.encode "alpha", Utf8.encode "data"], .file {}),
      ([Utf8.encode "b.bpl", Utf8.encode "alpha", Utf8.encode "data"], .file {}) ]

/-- The output root lies in the root, by a step out of a group, so the second run finds one group more
than the first. -/
theorem execute_again_nested :
    let config : Config := { layout := { outputRoot := Path.ofString "data/alpha/../logs" } }
    let verifier : ScriptedVerifier :=
      { script := [(Path.ofString "data/alpha/a.bpl", .failed (some 1) none)] }
    let root := Path.ofString "data"
    let first := execute (Setting.onDisk config) root (plainDisk, verifier)
    let again := execute (Setting.onDisk config) root first.1.state
    plainDisk.Linkless ∧ first.1.report.groupsVisited = 1 ∧ again.1.report.groupsVisited = 2 ∧
      ∃ report report', first.2 = .ok report ∧ again.2 = .ok report' ∧
        report'.processed = report.processed ∧ report'.succeeded = report.succeeded ∧
        report'.failed = report.failed ∧ report'.outcomes = report.outcomes ∧
        report.groupsVisited ≤ report'.groupsVisited ∧ again.1.state.1 = first.1.state.1 := by
  intro config verifier root first again
  have hlinkless : plainDisk.Linkless := by decide +kernel
  have hruns : first.2 = .ok first.1.report ∧ first.1.report.groupsVisited = 1 ∧
      again.1.report.groupsVisited = 2 := by
    -- merging does not evaluate in the kernel, inserting does
    simp only [again, first, Setting.onDisk, Setting.apart, sideBySide, SourceTree.within, diskTree,
      Disk.listGroups, Disk.listFiles, Disk.list, Disk.sortedNames, Disk.mergeSort_nameLe]
    decide +kernel
  obtain ⟨hreport, hone, htwo⟩ := hruns
  obtain ⟨report', hagain⟩ := execute_again config verifier root plainDisk _ hlinkless hreport
  exact ⟨hlinkless, hone, htwo, _, report', hreport, hagain⟩

end Batch

end BatchVerify
