import BatchVerify.Proofs.Batch.InMemory
import BatchVerify.Proofs.Batch.Noted
import BatchVerify.Tree.OnDisk
import Mathlib.Data.List.Sort

/-!
# What a failed run hands over

A source that fails under the policy to abort hands over the report gathered so far, with one
outcome for each answer of the verifier (`Batch.answers_eq`); any other failure hands over nothing,
however much was verified before it. Over a tree in memory no other failure comes after an answer
(`Batch.verifier_of_answers`). On a disk one can.
-/

namespace BatchVerify

variable {σ : Type}

/-- Names are in the order in which inserting them one by one puts them. -/
theorem Disk.mergeSort_nameLe (names : List Bytes) :
    names.mergeSort nameLe = names.insertionSort (· ≤ ·) :=
  List.mergeSort_eq_insertionSort (· ≤ ·) names

namespace SourceTree

/-- The trees that runs are over: one in memory or one on a disk, as a part of a larger state. -/
inductive Known : SourceTree σ → Prop
  | memory (part : σ → MemoryTree) (put : MemoryTree → σ → σ) : Known (memoryTree.within part put)
  | disk (part : σ → Disk) (put : Disk → σ → σ) : Known (diskTree.within part put)

/-- The failures that a tree ends its operations with. -/
inductive Raises (tree : SourceTree σ) (failure : Failure) : Prop
  | checkRoot {path : Path} {state : σ} (h : tree.checkRoot path state = .error failure)
  | listGroups {path : Path} {state : σ} (h : tree.listGroups path state = .error failure)
  | listFiles {path : Path} {state : σ} (h : tree.listFiles path state = .error failure)
  | ensureDir {path : Path} {state : σ} (h : (tree.ensureDir path state).1 = .error failure)

/-- The failures of a tree carry no report. -/
structure Plain (tree : SourceTree σ) : Prop where
  checkRoot : ∀ {path state failure}, tree.checkRoot path state = .error failure →
    failure.takeReport.1 = none
  listGroups : ∀ {path state failure}, tree.listGroups path state = .error failure →
    failure.takeReport.1 = none
  listFiles : ∀ {path state failure}, tree.listFiles path state = .error failure →
    failure.takeReport.1 = none
  ensureDir : ∀ {path state failure}, (tree.ensureDir path state).1 = .error failure →
    failure.takeReport.1 = none

theorem Plain.takeReport {tree : SourceTree σ} {failure : Failure} (htree : tree.Plain)
    (h : tree.Raises failure) : failure.takeReport.1 = none := by
  cases h with
  | checkRoot h => exact htree.checkRoot h
  | listGroups h => exact htree.listGroups h
  | listFiles h => exact htree.listFiles h
  | ensureDir h => exact htree.ensureDir h

theorem Plain.within {τ : Type} {tree : SourceTree σ} (h : tree.Plain) (part : τ → σ)
    (put : σ → τ → τ) : (tree.within part put).Plain where
  checkRoot := h.checkRoot
  listGroups := h.listGroups
  listFiles := h.listFiles
  ensureDir := h.ensureDir

theorem plain_memoryTree : memoryTree.Plain := by
  have hlist {keep : Path → Bool} {path : Path} {tree : MemoryTree} {failure : Failure}
      (h : tree.list keep path = .error failure) : failure.takeReport.1 = none := by
    unfold MemoryTree.list at h
    split at h
    · cases h
    · cases h
      rfl
  refine
    { checkRoot := ?checkRoot
      listGroups := hlist
      listFiles := hlist
      ensureDir := ?ensureDir }
  case checkRoot =>
    intro path tree failure h
    change tree.checkRoot path = _ at h
    unfold MemoryTree.checkRoot at h
    split_ifs at h <;> cases h <;> rfl
  case ensureDir =>
    intro path tree failure h
    change (tree.ensureDir path).1 = _ at h
    unfold MemoryTree.ensureDir at h
    split_ifs at h
    cases h
    rfl

theorem plain_diskTree : diskTree.Plain := by
  have hlist {keep : Node → Bool} {path : Path} {disk : Disk} {failure : Failure}
      (h : disk.list keep path = .error failure) : failure.takeReport.1 = none := by
    unfold Disk.list at h
    split at h
    · cases h
      rfl
    · cases h
  refine
    { checkRoot := ?checkRoot
      listGroups := hlist
      listFiles := hlist
      ensureDir := ?ensureDir }
  case checkRoot =>
    intro path disk failure h
    change disk.checkRoot path = _ at h
    unfold Disk.checkRoot at h
    split at h
    · cases h
    · cases h
      rfl
    · split_ifs at h <;> cases h <;> rfl
  case ensureDir =>
    intro path disk failure h
    change (disk.ensureDir path).1 = _ at h
    unfold Disk.ensureDir at h
    split at h
    · cases h
    · cases h
      rfl

theorem Known.plain {tree : SourceTree σ} (h : tree.Known) : tree.Plain := by
  cases h with
  | memory part put => exact plain_memoryTree.within part put
  | disk part put => exact plain_diskTree.within part put

end SourceTree

namespace Batch

variable {setting : Setting σ} {root : Path} {state : σ} {failure : Failure}

/-- What stops a run from outside is a failure of its tree, or progress that cannot be told. -/
theorem Raised.raises (h : Raised setting failure) :
    setting.tree.Raises failure ∨ ∃ cause, failure = .system cause := by
  cases h with
  | tell cause => exact Or.inr ⟨cause, rfl⟩
  | listFiles hlist => exact Or.inl (.listFiles hlist)
  | ensureDir hmade => exact Or.inl (.ensureDir hmade)

/-- A run fails as its tree does, with progress that cannot be told, or at a source with the report
that it gathered. -/
theorem execute_stop (h : (execute setting root state).2 = .error failure) :
    setting.tree.Raises failure ∨ (∃ cause, failure = .system cause) ∨
      ∃ source details,
        failure = .verifier source details (execute setting root state).1.report := by
  unfold execute at h ⊢
  cases hroot : setting.tree.checkRoot root state with
  | error cause =>
    rw [hroot] at h
    cases h
    exact Or.inl (.checkRoot hroot)
  | ok checked =>
    cases hgroups : setting.tree.listGroups root state with
    | error cause =>
      rw [hroot, hgroups] at h
      cases h
      exact Or.inl (.listGroups hgroups)
    | ok listing =>
      rw [hroot, hgroups] at h
      dsimp only at h ⊢
      rcases hvisit : visitGroups setting (listing.kept.filterMap Group.ofPath?)
          { state, trace := listing.events } with ⟨stopped, _ | cause⟩ <;> rw [hvisit] at h
      · cases h
      · cases h
        rcases visitGroups_stop hvisit with hraised | hsource
        · exact hraised.raises.imp_right Or.inl
        · exact Or.inr (Or.inr hsource)

/-- A failed run carries the report that it gathered, or none at all. -/
theorem takeReport_of_execute (htree : setting.tree.Plain)
    (h : (execute setting root state).2 = .error failure) :
    failure.takeReport.1 = none ∨
      ∃ source details,
        failure = .verifier source details (execute setting root state).1.report := by
  rcases execute_stop h with hraises | ⟨cause, rfl⟩ | hsource
  · exact Or.inl (htree.takeReport hraises)
  · exact Or.inl rfl
  · exact Or.inr hsource

/-- What the verifier was asked and how it answered in a run. -/
def answers (setting : Setting σ) (root : Path) (state : σ) : Notes :=
  (execute setting.noted root (state, [])).1.state.2

/-- The outcomes of a run are the answers of its verifier, in order. -/
theorem answers_eq (setting : Setting σ) (root : Path) (state : σ) :
    answers setting root state =
      (execute setting root state).1.report.outcomes.map fun outcome =>
        (outcome.invocation setting.config.verifier, outcome.status) := by
  have hnoted : Noted setting.config.verifier (execute setting.noted root (state, [])).1 :=
    execute_keeps noted_step (fun events hrun => hrun) rfl
  -- the run with notes has the report of the run without
  have hforget := congrArg (fun result => result.1.report) (execute_noted setting root state [])
  rw [← hforget]
  exact hnoted

/-- Over a tree in memory only a source can stop a run that got an answer. -/
theorem verifier_of_answers {τ : Type} {verifier : Verifier τ} {config : Config}
    {tree : MemoryTree} {state : τ}
    (h : (execute (Setting.apart memoryTree verifier config) root (tree, state)).2 =
      .error failure)
    (hanswers : answers (Setting.apart memoryTree verifier config) root (tree, state) ≠ []) :
    ∃ source details report, failure = .verifier source details report := by
  rw [answers_eq, ne_eq, List.map_eq_nil_iff] at hanswers
  by_cases hroot : tree.dirs.contains root = true
  · rw [execute_apart_of_contains verifier config hroot] at h hanswers
    have hknown : ∀ group ∈ tree.groups root, tree.dirs.contains group.path = true :=
      fun _ => MemoryTree.contains_of_mem_groups
    rcases hvisit : visitGroups (Setting.apart memoryTree verifier config) (tree.groups root)
        { state := (tree, state) } with ⟨stopped, _ | cause⟩ <;> rw [hvisit] at h hanswers
    · cases h
    · cases h
      -- a tree that takes no directories stops the run before the verifier is asked
      by_cases hreadOnly : tree.readOnly = true
      · have hnone : (visitGroups (Setting.apart memoryTree verifier config) (tree.groups root)
            { state := (tree, state) }).1.report.outcomes = [] :=
          outcomes_visitGroups_of_readOnly hknown ⟨rfl, rfl, rfl⟩ hreadOnly
        rw [hvisit] at hnone
        exact absurd hnone hanswers
      · obtain ⟨group, sources, opened, hstop⟩ :=
          visitGroups_stop_of_writable hknown ⟨rfl, rfl, rfl⟩ hreadOnly hvisit
        obtain ⟨source, details, hfailure⟩ := verifySources_stop hstop
        exact ⟨source, details, _, hfailure⟩
  · rw [execute_apart_of_not_contains verifier config hroot] at hanswers
    exact absurd rfl hanswers

/-- A source that stops a run hands over one outcome for each answer of the verifier, in order;
no other failure hands over a report. Over a tree in memory no other failure follows an answer. -/
theorem takeReport_execute :
    (∀ {σ : Type} (setting : Setting σ) (root : Path) (state : σ) (failure : Failure),
      setting.tree.Known → (execute setting root state).2 = .error failure →
      match failure with
      | .verifier _ _ report =>
        failure.takeReport.1 = some report ∧
          (report.outcomes.map fun outcome =>
            (outcome.invocation setting.config.verifier, outcome.status)) =
            answers setting root state
      | _ => failure.takeReport.1 = none) ∧
    (∀ {τ : Type} (verifier : Verifier τ) (config : Config) (root : Path) (tree : MemoryTree)
      (state : τ) (failure : Failure),
      (execute (Setting.apart memoryTree verifier config) root (tree, state)).2 = .error failure →
      answers (Setting.apart memoryTree verifier config) root (tree, state) ≠ [] →
      ∃ source details report, failure = .verifier source details report) := by
  refine ⟨?_, fun verifier config root tree state failure => verifier_of_answers⟩
  intro σ setting root state failure htree h
  rcases takeReport_of_execute htree.plain h with hnone | ⟨source, details, rfl⟩
  · cases failure <;> first | rfl | cases hnone
  · exact ⟨rfl, (answers_eq setting root state).symm⟩

/-- The first of two sources fails under the policy to abort: its report has that one outcome. -/
theorem takeReport_data_tree :
    let source := Path.ofString "/data/alpha/a.bpl"
    let verifier : ScriptedVerifier := { script := [(source, .failed (some 1) none)] }
    let setting := Setting.inMemory { run := { onError := .abort } }
    let start := (MemoryTree.ofAdditions dataAdditions, verifier)
    ∃ failure report, (execute setting (Path.ofString "/data") start).2 = .error failure ∧
      failure.takeReport.1 = some report ∧
      (report.outcomes.map fun outcome =>
        (outcome.invocation setting.config.verifier, outcome.status)) =
        answers setting (Path.ofString "/data") start ∧
      answers setting (Path.ofString "/data") start ≠ [] ∧
      ∃ source details report, failure = .verifier source details report := by
  intro source verifier setting start
  have hfailed : (execute setting (Path.ofString "/data") start).2 =
      .error (.verifier source "exited with status 1"
        (execute setting (Path.ofString "/data") start).1.report) := by decide +kernel
  have hreport := takeReport_execute.1 setting (Path.ofString "/data") start _
    (.memory Prod.fst fun changed state => (changed, state.2)) hfailed
  have hanswers : answers setting (Path.ofString "/data") start ≠ [] := by decide +kernel
  exact ⟨_, _, hfailed, hreport.1, hreport.2, hanswers,
    takeReport_execute.2 scriptedVerifier setting.config (Path.ofString "/data") start.1 start.2 _
      hfailed hanswers⟩

/-- A disk where a file stands in place of the output directory of the second group. -/
def crowdedDisk : Disk where
  nodes :=
    [ ([Utf8.encode "data"], .directory),
      ([Utf8.encode "alpha", Utf8.encode "data"], .directory),
      ([Utf8.encode "a.bpl", Utf8.encode "alpha", Utf8.encode "data"], .file {}),
      ([Utf8.encode "beta", Utf8.encode "data"], .directory),
      ([Utf8.encode "b.bpl", Utf8.encode "beta", Utf8.encode "data"], .file {}),
      ([Utf8.encode "out"], .directory),
      ([Utf8.encode "beta", Utf8.encode "out"], .file {}) ]

/-- The answer about the first group is lost when the second group cannot be given a directory. -/
theorem takeReport_crowded :
    let setting := Setting.apart diskTree scriptedVerifier
      { layout := { outputRoot := Path.ofString "out" } }
    let start := (crowdedDisk, ({} : ScriptedVerifier))
    (execute setting (Path.ofString "data") start).2 =
        .error (.outputDirectory (Path.ofString "out/beta") (.os .exists)) ∧
      (answers setting (Path.ofString "data") start).length = 1 ∧
      (Failure.outputDirectory (Path.ofString "out/beta") (.os .exists)).takeReport.1 = none := by
  -- merging does not evaluate in the kernel, inserting does
  simp only [answers, Setting.noted, Setting.apart, sideBySide, SourceTree.within, diskTree,
    Disk.listGroups, Disk.listFiles, Disk.list, Disk.sortedNames, Disk.mergeSort_nameLe]
  decide +kernel

end Batch

end BatchVerify
