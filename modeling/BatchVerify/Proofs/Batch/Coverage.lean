import BatchVerify.Proofs.Batch.InMemory
import Mathlib.Data.List.Nodup

/-!
# What a run covers

A run over a tree in memory that gets through verifies every source once and nothing else: a file
is met only below the one group that is its directory, and there it is listed once
(`MemoryTree.WellFormed.nodup_sourceKeys`).
-/

namespace BatchVerify

open MemoryTree (parentOf)

namespace MemoryTree

variable {tree : MemoryTree}

/-- The groups of a root differ as paths. -/
theorem WellFormed.pairwise_groups (h : tree.WellFormed) (root : Path) :
    (tree.groups root).Pairwise fun group group' => ¬ group.path.Same group'.path := by
  unfold groups
  rw [List.pairwise_filterMap]
  refine ((h.ascending_entries root).filter _).pairwise_not_same.imp ?_
  intro path path' hne group hgroup group' hgroup'
  obtain ⟨name, _, rfl⟩ := Option.map_eq_some_iff.mp hgroup
  obtain ⟨name', _, rfl⟩ := Option.map_eq_some_iff.mp hgroup'
  exact hne

/-- The groups of a root differ by name. -/
theorem WellFormed.nodup_groupNames (h : tree.WellFormed) (root : Path) :
    ((tree.groups root).map Group.name).Nodup := by
  refine List.pairwise_map.mpr ((h.pairwise_groups root).imp_of_mem ?_)
  intro group group' hgroup hgroup' hne hname
  obtain ⟨hmem, _, hnamed⟩ := mem_groups.mp hgroup
  obtain ⟨hmem', _, hnamed'⟩ := mem_groups.mp hgroup'
  -- both lie in the root, so they differ in nothing but the name
  have hdir := (h.parentOf_same_of_mem hmem).trans (h.parentOf_same_of_mem hmem').symm
  unfold Path.Same at hne hdir
  rw [components_parentOf, components_parentOf] at hdir
  exact hne (by rw [Path.components_of_name? hnamed, Path.components_of_name? hnamed', hdir, hname])

/-- The files, up to their spelling, that a run over a root finds in its groups. -/
def sourceKeys (tree : MemoryTree) (root : Path) (extension : String) : List (List Component) :=
  (tree.groups root).flatMap fun group =>
    (tree.sources extension group).map fun source => source.path.components

theorem map_components_sources (tree : MemoryTree) (extension : String) (group : Group) :
    ((tree.sources extension group).map fun source => source.path.components) =
      (((tree.dirs.entries? group.path).getD []).filter fun path =>
        containsPath tree.files path && hasExtension path extension).map Path.components := by
  rw [← map_path_sources, List.map_map]
  rfl

/-- No file is found twice. -/
theorem WellFormed.nodup_sourceKeys (h : tree.WellFormed) (root : Path) (extension : String) :
    (tree.sourceKeys root extension).Nodup := by
  unfold sourceKeys
  rw [List.nodup_flatMap]
  constructor
  · intro group _
    rw [map_components_sources]
    exact ((h.ascending_entries group.path).filter _).nodup_components
  · -- a file in two groups would have both for its directory
    refine (h.pairwise_groups root).imp fun {group group'} hne => ?_
    simp only [Function.onFun, map_components_sources]
    intro key hkey hkey'
    obtain ⟨path, hpath, rfl⟩ := List.mem_map.mp hkey
    obtain ⟨path', hpath', hsame⟩ := List.mem_map.mp hkey'
    have hdir := h.parentOf_same_of_mem (List.mem_of_mem_filter hpath)
    have hdir' := h.parentOf_same_of_mem (List.mem_of_mem_filter hpath')
    exact hne (hdir.symm.trans ((parentOf_same (Eq.symm hsame)).trans hdir'))

/-- A file is found if it lies in a group and has the extension. -/
theorem WellFormed.mem_sourceKeys (h : tree.WellFormed) (root : Path) (extension : String)
    (file : Path) :
    file.components ∈ tree.sourceKeys root extension ↔
      containsPath tree.files file = true ∧
        (∃ group ∈ tree.groups root, (parentOf file).Same group.path) ∧
        hasExtension file extension = true := by
  unfold sourceKeys
  simp only [List.mem_flatMap, map_components_sources, List.mem_map, List.mem_filter,
    Bool.and_eq_true]
  constructor
  · rintro ⟨group, hgroup, path, ⟨hmem, hfile, hext⟩, hsame⟩
    obtain ⟨p, hp, hpsame⟩ := containsPath_iff.mp hfile
    refine ⟨containsPath_iff.mpr ⟨p, hp, hpsame.trans hsame⟩, ⟨group, hgroup, ?_⟩, ?_⟩
    · exact (parentOf_same (Eq.symm hsame)).trans (h.parentOf_same_of_mem hmem)
    · rwa [← Path.Same.hasExtension_eq hsame]
  · rintro ⟨hfile, ⟨group, hgroup, hdir⟩, hext⟩
    obtain ⟨entries, hentries, hlisted⟩ := (h.listed hfile).congr hdir (Path.Same.refl file)
    obtain ⟨path, hmem, hsame⟩ := containsPath_iff.mp hlisted
    obtain ⟨p, hp, hpsame⟩ := containsPath_iff.mp hfile
    refine ⟨group, hgroup, path, ⟨?_, ?_, ?_⟩, hsame⟩
    · rwa [hentries]
    · exact containsPath_iff.mpr ⟨p, hp, hpsame.trans hsame.symm⟩
    · rwa [hsame.hasExtension_eq]

end MemoryTree

namespace Batch

variable {config : Config} {tree : MemoryTree} {verifier : ScriptedVerifier} {root : Path}
  {report : Report}

/-- A run that gets through has the outcomes of all sources of all groups of its root. -/
theorem outcomes_execute
    (h : (execute (Setting.inMemory config) root (tree, verifier)).2 = .ok report) :
    tree.dirs.contains root = true ∧
      report.outcomes = (tree.groups root).flatMap (outcomesOf config tree verifier) := by
  by_cases hroot : tree.dirs.contains root = true
  · refine ⟨hroot, ?_⟩
    rw [execute_apart_of_contains scriptedVerifier config hroot] at h
    rcases hvisit : visitGroups (Setting.inMemory config) (tree.groups root)
        { state := (tree, verifier) } with ⟨visited, _ | failure⟩
    · rw [hvisit] at h
      cases h
      have htree : (tree, verifier).1.SameContent tree := ⟨rfl, rfl, rfl⟩
      exact outcomes_visitGroups (fun _ => MemoryTree.contains_of_mem_groups) htree rfl hvisit
    · rw [hvisit] at h
      cases h
  · rw [execute_apart_of_not_contains scriptedVerifier config hroot] at h
    cases h

/-- Whatever the result of a run, the verifier was asked once for each outcome. -/
theorem asked_execute (config : Config) (root : Path) (tree : MemoryTree)
    (verifier : ScriptedVerifier) :
    Asked config verifier.invocations
      (execute (Setting.inMemory config) root (tree, verifier)).1 := by
  refine execute_keeps asked_step (fun events hrun => hrun) ?_
  simp [Asked]

theorem map_components_outcomesOf (config : Config) (tree : MemoryTree)
    (verifier : ScriptedVerifier) (group : Group) :
    ((outcomesOf config tree verifier group).map fun outcome => outcome.source.components) =
      (tree.sources config.layout.sourceExtension group).map fun source =>
        source.path.components := by
  unfold outcomesOf
  rw [List.map_map]
  rfl

/-- A run that gets through records every file that it finds, and nothing else, once. -/
theorem countP_outcomes (hwf : tree.WellFormed)
    (h : (execute (Setting.inMemory config) root (tree, verifier)).2 = .ok report)
    (file : Path) :
    (report.outcomes.countP fun outcome => outcome.source.Same file) =
      if file.components ∈ tree.sourceKeys root config.layout.sourceExtension then 1 else 0 := by
  have hkeys : (report.outcomes.map fun outcome => outcome.source.components) =
      tree.sourceKeys root config.layout.sourceExtension := by
    rw [(outcomes_execute h).2, List.map_flatMap]
    simp only [map_components_outcomesOf]
    rfl
  -- counting the outcomes of a file is counting the file among those that are found
  rw [← (hwf.nodup_sourceKeys root config.layout.sourceExtension).count, ← hkeys, List.count,
    List.countP_map]
  congr 1
  funext outcome
  rw [Bool.eq_iff_iff, decide_eq_true_iff, Function.comp_apply, beq_iff_eq]
  rfl

/-- A file lies in one of the listed directories that have a name, and has the extension. -/
def Selected (listing : Listing) (extension : String) (file : Path) : Prop :=
  (∃ parent, file.parent? = some parent ∧
    ∃ dir ∈ listing.kept, dir.name?.isSome ∧ parent.Same dir) ∧
  hasExtension file extension = true

/-- The files that a run finds are those that were added and are selected. -/
theorem mem_sourceKeys_iff_selected {additions : List Addition} {listing : Listing}
    (hreachable : MemoryTree.Reachable additions tree) (hroot : tree.dirs.contains root = true)
    (hlisting : memoryTree.listGroups root tree = .ok listing) (extension : String)
    (file : Path) :
    file.components ∈ tree.sourceKeys root extension ↔
      (∃ added, .file added ∈ additions ∧ added.Same file) ∧
        Selected listing extension file := by
  have hkept : ∀ dir, dir ∈ listing.kept ↔
      dir ∈ (tree.dirs.entries? root).getD [] ∧ tree.dirs.contains dir = true := by
    intro dir
    cases (MemoryTree.listGroups_of_contains hroot).symm.trans hlisting
    rw [List.mem_filter]
  rw [hreachable.wellFormed.mem_sourceKeys, hreachable.containsPath_files, Selected]
  refine and_congr_right fun _ => and_congr_left fun hext => ?_
  -- a path with an extension has a name and so a directory, and never falls back on the empty path
  obtain ⟨name, hname⟩ := Option.isSome_iff_exists.mp (Path.name?_isSome_of_hasExtension hext)
  obtain ⟨parent, hparent⟩ :=
    Option.isSome_iff_exists.mp (Path.parent?_isSome_of_name? (Option.isSome_of_eq_some hname))
  constructor
  · rintro ⟨group, hgroup, hsame⟩
    obtain ⟨hmem, hknown, hgroupName⟩ := MemoryTree.mem_groups.mp hgroup
    rw [MemoryTree.parentOf_eq_of_parent? hparent] at hsame
    exact ⟨parent, hparent, group.path, (hkept _).mpr ⟨hmem, hknown⟩,
      Option.isSome_of_eq_some hgroupName, hsame⟩
  · rintro ⟨parent', hparent', dir, hdir, hnamed, hsame⟩
    obtain ⟨groupName, hgroupName⟩ := Option.isSome_iff_exists.mp hnamed
    obtain ⟨hmem, hknown⟩ := (hkept dir).mp hdir
    refine ⟨⟨groupName, dir⟩, MemoryTree.mem_groups.mpr ⟨hmem, hknown, hgroupName⟩, ?_⟩
    rwa [MemoryTree.parentOf_eq_of_parent? hparent']

/-- Every added file that lies in a group below the root and has the source extension is the source
of one outcome and of one invocation; no other path is the source of any. -/
theorem execute_covers_sources_once {additions : List Addition}
    (hreachable : MemoryTree.Reachable additions tree)
    (h : (execute (Setting.inMemory config) root (tree, verifier)).2 = .ok report) :
    ∃ listing asked,
      memoryTree.listGroups root tree = .ok listing ∧
      (execute (Setting.inMemory config) root (tree, verifier)).1.state.2.invocations =
        verifier.invocations ++ asked ∧
      ∀ file : Path,
        ((∃ added, .file added ∈ additions ∧ added.Same file) ∧
            Selected listing config.layout.sourceExtension file →
          (report.outcomes.countP fun outcome => outcome.source.Same file) = 1 ∧
          (asked.countP fun invocation => invocation.source?.any (·.Same file)) = 1) ∧
        (¬ ((∃ added, .file added ∈ additions ∧ added.Same file) ∧
            Selected listing config.layout.sourceExtension file) →
          (report.outcomes.countP fun outcome => outcome.source.Same file) = 0 ∧
          (asked.countP fun invocation => invocation.source?.any (·.Same file)) = 0) := by
  have hroot := (outcomes_execute h).1
  have hlisting := MemoryTree.listGroups_of_contains hroot
  have hasked := asked_execute config root tree verifier
  rw [Asked, report_execute h] at hasked
  have hcount : ∀ file : Path,
      ((report.outcomes.map (Outcome.invocation config.verifier)).countP fun invocation =>
        invocation.source?.any (·.Same file)) =
      report.outcomes.countP fun outcome => outcome.source.Same file := by
    intro file
    rw [List.countP_map]
    rfl
  refine ⟨_, _, hlisting, hasked, fun file => ?_⟩
  -- the verifier was asked once for each outcome, so one count serves for both
  rw [hcount, countP_outcomes hreachable.wellFormed h file]
  have hselected := mem_sourceKeys_iff_selected hreachable hroot hlisting
    config.layout.sourceExtension file
  constructor
  · intro hfile
    rw [if_pos (hselected.mpr hfile)]
    exact ⟨rfl, rfl⟩
  · intro hfile
    rw [if_neg (mt hselected.mp hfile)]
    exact ⟨rfl, rfl⟩

/-- A file in a group is verified, a file beside the groups is not. -/
theorem execute_data_tree :
    let run := execute (Setting.inMemory {}) (Path.ofString "/data")
      (MemoryTree.ofAdditions dataAdditions, {})
    (run.1.report.outcomes.countP fun outcome =>
        outcome.source.Same (Path.ofString "/data/beta/c.bpl")) = 1 ∧
      (run.1.report.outcomes.countP fun outcome =>
        outcome.source.Same (Path.ofString "/data/notes.bpl")) = 0 := by
  intro run
  obtain ⟨listing, asked, hlisting, -, hcovered⟩ :=
    execute_covers_sources_once (MemoryTree.reachable_ofAdditions dataAdditions)
      (show run.2 = .ok run.1.report by decide +kernel)
  have hgroups : memoryTree.listGroups (Path.ofString "/data")
      (MemoryTree.ofAdditions dataAdditions) =
      .ok ⟨[Path.ofString "/data/alpha", Path.ofString "/data/beta"], []⟩ := by decide +kernel
  cases hgroups.symm.trans hlisting
  constructor
  · refine ((hcovered _).1 ⟨⟨Path.ofString "/data/beta/c.bpl", ?_, ?_⟩, ?_⟩).1
    · decide +kernel
    · rfl
    · refine ⟨⟨Path.ofString "/data/beta", ?_, Path.ofString "/data/beta", ?_, ?_, rfl⟩, ?_⟩ <;>
        decide +kernel
  · refine ((hcovered _).2 ?_).1
    rintro ⟨-, ⟨parent, hparent, dir, hdir, -, hsame⟩, -⟩
    have hdata : (Path.ofString "/data/notes.bpl").parent? = some (Path.ofString "/data") := by
      decide +kernel
    cases hdata.symm.trans hparent
    revert dir
    decide +kernel
end Batch

end BatchVerify
