import BatchVerify.Proofs.Batch.Yield
import BatchVerify.Proofs.Tree.Spellings

/-!
# One file more

A file that is added to a group becomes one source of that group, or none: it is one already, or its
extension is another one (`MemoryTree.sources_addFile_of_idle`, `MemoryTree.exists_sources_addFile`).
Groups, and the sources of all other groups, stay what they are. So a run over the tree with the file
leaves behind what a run without it does, and at most the one outcome besides
(`Batch.execute_addFile`).
-/

namespace BatchVerify

open MemoryTree (parentOf)

/-! ## A file in a directory that is known -/

namespace MemoryTree

variable {tree : MemoryTree} {path root : Path} {group : Group} {extension : String}

theorem entries?_addFile (h : tree.WellFormed) (hknown : tree.dirs.contains (parentOf path) = true)
    (dir : Path) :
    (tree.addFile path).dirs.entries? dir =
      if (parentOf path).Same dir then some (insertPath path ((tree.dirs.entries? dir).getD []))
      else tree.dirs.entries? dir := by
  rw [addFile_eq, withParent, if_pos hknown]
  dsimp only
  rw [Directories.entries?_alter h.ordered.keys]
  split_ifs with hsame
  · rw [Directories.entries?_congr hsame]
  · rfl

theorem contains_addFile (h : tree.WellFormed) (hknown : tree.dirs.contains (parentOf path) = true) :
    (tree.addFile path).dirs.contains = tree.dirs.contains := by
  funext dir
  unfold Directories.contains
  rw [entries?_addFile h hknown]
  split_ifs with hsame
  · rw [← Directories.entries?_congr hsame]
    exact hknown.symm
  · rfl

theorem files_addFile (tree : MemoryTree) (path : Path) :
    (tree.addFile path).files = insertPath path tree.files := by
  rw [addFile_eq]
  exact congrArg (insertPath path) (files_withParent tree path)

/-- A file that is no entry of the root adds no group to it. -/
theorem groups_addFile (h : tree.WellFormed) (hknown : tree.dirs.contains (parentOf path) = true)
    (hroot : ¬ (parentOf path).Same root) : (tree.addFile path).groups root = tree.groups root := by
  unfold groups
  rw [entries?_addFile h hknown, if_neg hroot, contains_addFile h hknown]

/-- The source that a path is in a tree. -/
def source? (tree : MemoryTree) (extension : String) (path : Path) : Option Source :=
  if containsPath tree.files path then Source.matching? path extension else none

theorem sources_eq_filterMap (tree : MemoryTree) (extension : String) (group : Group) :
    tree.sources extension group =
      ((tree.dirs.entries? group.path).getD []).filterMap (tree.source? extension) := by
  unfold sources source?
  rw [List.filterMap_filter]

theorem source?_addFile_of_not_same {p : Path} (h : ¬ p.Same path) :
    (tree.addFile path).source? extension p = tree.source? extension p := by
  have hfile : containsPath (insertPath path tree.files) p = containsPath tree.files p := by
    rw [Bool.eq_iff_iff, containsPath_insertPath, or_iff_right fun hsame => h hsame.symm]
  rw [source?, files_addFile, hfile, source?]

/-- A file that lies elsewhere is nothing to a group. -/
theorem sources_addFile_of_apart (h : tree.WellFormed)
    (hknown : tree.dirs.contains (parentOf path) = true) (hapart : ¬ (parentOf path).Same group.path) :
    (tree.addFile path).sources extension group = tree.sources extension group := by
  rw [sources_eq_filterMap, sources_eq_filterMap, entries?_addFile h hknown, if_neg hapart]
  refine List.filterMap_congr fun p hp => source?_addFile_of_not_same fun hsame => hapart ?_
  exact (parentOf_same hsame.symm).trans (h.parentOf_same_of_mem hp)

/-- In its group, a new file becomes the source that it is by its name, if any. -/
theorem exists_sources_addFile (h : tree.WellFormed)
    (hknown : tree.dirs.contains (parentOf path) = true) (hgroup : (parentOf path).Same group.path)
    (hnew : ¬ containsPath tree.files path = true) (extension : String) :
    ∃ before spelling after, spelling.Same path ∧
      tree.sources extension group = before ++ after ∧
      (tree.addFile path).sources extension group =
        before ++ (Source.matching? spelling extension).toList ++ after := by
  obtain ⟨before, spelling, after, hsame, hinsert, hothers⟩ :=
    exists_insertPath (h.ascending_entries group.path) path
  have hapart : ∀ p ∈ before ++ after, ¬ p.Same path := by
    intro p hp
    rw [← hothers] at hp
    exact of_decide_eq_true (List.mem_filter.mp hp).2
  have hothers' {list : List Path} (hlist : list ⊆ before ++ after) :
      list.filterMap ((tree.addFile path).source? extension) =
        list.filterMap (tree.source? extension) :=
    List.filterMap_congr fun p hp => source?_addFile_of_not_same (hapart p (hlist hp))
  have hfile : (tree.addFile path).source? extension spelling =
      Source.matching? spelling extension := by
    rw [source?, files_addFile, if_pos (containsPath_insertPath.mpr (Or.inl hsame.symm))]
  refine ⟨before.filterMap (tree.source? extension), spelling,
    after.filterMap (tree.source? extension), hsame, ?_, ?_⟩
  · -- a spelling of the path among the entries was a directory, and so no source
    rw [← List.filterMap_append, ← hothers, List.filterMap_filter, sources_eq_filterMap]
    refine List.filterMap_congr fun p _ => ?_
    by_cases hp : p.Same path
    · simp [source?, containsPath_congr hp, hnew]
    · simp [hp]
  · rw [sources_eq_filterMap, entries?_addFile h hknown, if_pos hgroup, Option.getD_some, hinsert,
      List.filterMap_append, List.filterMap_cons, hothers' (List.subset_append_left _ _),
      hothers' (List.subset_append_right _ _), hfile]
    cases Source.matching? spelling extension <;> simp

/-- A file that was there, or that has another extension, changes no sources. -/
theorem sources_addFile_of_idle (h : tree.WellFormed)
    (hknown : tree.dirs.contains (parentOf path) = true)
    (hidle : containsPath tree.files path = true ∨ ¬ hasExtension path extension = true)
    (group : Group) : (tree.addFile path).sources extension group = tree.sources extension group := by
  by_cases hgroup : (parentOf path).Same group.path
  · by_cases hfile : containsPath tree.files path = true
    · -- it is an entry of its directory then
      obtain ⟨entries, hentries, hlisted⟩ := (h.listed hfile).congr hgroup (Path.Same.refl path)
      have hentered := insertPath_of_containsPath (h.ordered.entries hentries) hlisted
      unfold sources
      rw [entries?_addFile h hknown, if_pos hgroup, hentries, files_addFile,
        insertPath_of_containsPath h.files hfile]
      simp only [Option.getD_some, hentered]
    · obtain ⟨before, spelling, after, hsame, hsources, hsources'⟩ :=
        exists_sources_addFile h hknown hgroup hfile extension
      have hother : ¬ hasExtension spelling extension = true := by
        rw [hsame.hasExtension_eq]
        exact hidle.resolve_left hfile
      rw [hsources, hsources', Source.matching?, if_neg hother]
      simp
  · exact sources_addFile_of_apart h hknown hgroup

end MemoryTree

namespace Batch

variable {config : Config} {tree : MemoryTree} {verifier : ScriptedVerifier} {root path : Path}
  {group : Group}

/-! ## The outcomes with one file more -/

/-- A file in a group does not lie right in the root of the group. -/
theorem not_parentOf_same_root (h : tree.WellFormed) (hgroup : group ∈ tree.groups root)
    (hparent : (parentOf path).Same group.path) : ¬ (parentOf path).Same root := by
  obtain ⟨hmem, -, hname⟩ := MemoryTree.mem_groups.mp hgroup
  have hroot := h.parentOf_same_of_mem hmem
  intro hsame
  have hcycle : group.path.components = group.path.components.dropLast := by
    rw [← MemoryTree.components_parentOf]
    exact (hparent.symm.trans hsame).trans hroot.symm
  -- the last component of a group is its name
  rw [Path.components_of_name? hname, List.dropLast_concat] at hcycle
  simpa using congrArg List.length hcycle

theorem contains_parentOf (hgroup : group ∈ tree.groups root)
    (hparent : (parentOf path).Same group.path) : tree.dirs.contains (parentOf path) = true := by
  rw [Directories.contains_congr hparent]
  exact MemoryTree.contains_of_mem_groups hgroup

theorem outcomesBelow_addFile_of_idle (h : tree.WellFormed) (hgroup : group ∈ tree.groups root)
    (hparent : (parentOf path).Same group.path)
    (hidle : containsPath tree.files path = true ∨
      ¬ hasExtension path config.layout.sourceExtension = true) :
    outcomesBelow config (tree.addFile path) verifier root =
      outcomesBelow config tree verifier root := by
  have hknown := contains_parentOf hgroup hparent
  unfold outcomesBelow
  rw [MemoryTree.groups_addFile h hknown (not_parentOf_same_root h hgroup hparent)]
  congr 1
  funext other
  unfold outcomesOf
  rw [MemoryTree.sources_addFile_of_idle h hknown hidle]

theorem statusOf_of_same (verifier : ScriptedVerifier) {source : Path} (h : source.Same path) :
    verifier.statusOf source = verifier.statusOf path := by
  have hkey (entry : Path × Status) : entry.1.Same source ↔ entry.1.Same path :=
    ⟨fun hsource => hsource.trans h, fun hpath => hpath.trans h.symm⟩
  simp only [ScriptedVerifier.statusOf, hkey]

/-- A new source of a group has its outcome among those of the group. -/
theorem exists_outcomesOf_addFile (verifier : ScriptedVerifier) (h : tree.WellFormed)
    (hknown : tree.dirs.contains (parentOf path) = true)
    (hparent : (parentOf path).Same group.path) (hnew : ¬ containsPath tree.files path = true)
    (hext : hasExtension path config.layout.sourceExtension = true) :
    ∃ earlier source later, source.path.Same path ∧ path.stem? = some source.stem ∧
      outcomesOf config tree verifier group = earlier ++ later ∧
      outcomesOf config (tree.addFile path) verifier group =
        earlier ++ outcomeOf (Setting.inMemory config) group source (verifier.statusOf path) ::
          later := by
  obtain ⟨before, spelling, after, hsame, hsources, hsources'⟩ :=
    MemoryTree.exists_sources_addFile h hknown hparent hnew config.layout.sourceExtension
  obtain ⟨name, hname⟩ := Option.isSome_iff_exists.mp (Path.name?_isSome_of_hasExtension hext)
  have hstem {p : Path} (hp : p.Same path) : p.stem? = some (splitExtension name).1 := by
    rw [Path.stem?, hp.name?_eq, hname, Option.map_some]
  have hsource : Source.matching? spelling config.layout.sourceExtension =
      some ⟨spelling, (splitExtension name).1⟩ := by
    rw [Source.matching?, if_pos (hsame.hasExtension_eq _ ▸ hext), hstem hsame, Option.map_some]
  let outcome (source : Source) : Outcome :=
    outcomeOf (Setting.inMemory config) group source (verifier.statusOf source.path)
  refine ⟨before.map outcome, ⟨spelling, (splitExtension name).1⟩, after.map outcome, hsame,
    hstem (Path.Same.refl path), ?_, ?_⟩
  · rw [outcomesOf, hsources, List.map_append]
  · rw [outcomesOf, hsources', hsource, ← statusOf_of_same verifier hsame, Option.toList_some,
      List.append_assoc, List.map_append, List.singleton_append, List.map_cons]

/-- A new source of a group has its outcome among those of all groups. -/
theorem exists_outcomesBelow_addFile (verifier : ScriptedVerifier) (h : tree.WellFormed)
    (hgroup : group ∈ tree.groups root) (hparent : (parentOf path).Same group.path)
    (hnew : ¬ containsPath tree.files path = true)
    (hext : hasExtension path config.layout.sourceExtension = true) :
    ∃ earlier source later, source.path.Same path ∧ path.stem? = some source.stem ∧
      outcomesBelow config tree verifier root = earlier ++ later ∧
      outcomesBelow config (tree.addFile path) verifier root =
        earlier ++ outcomeOf (Setting.inMemory config) group source (verifier.statusOf path) ::
          later := by
  have hknown := contains_parentOf hgroup hparent
  have hgroups := MemoryTree.groups_addFile h hknown (not_parentOf_same_root h hgroup hparent)
  obtain ⟨before, after, hsplit⟩ := List.append_of_mem hgroup
  -- the other groups are other paths, so the file does not lie in them
  have hpairwise := h.pairwise_groups root
  rw [hsplit, List.pairwise_append, List.pairwise_cons] at hpairwise
  obtain ⟨-, ⟨hafter, -⟩, hbefore⟩ := hpairwise
  have hothers {others : List Group} (hapart : ∀ g ∈ others, ¬ group.path.Same g.path) :
      others.flatMap (outcomesOf config (tree.addFile path) verifier) =
        others.flatMap (outcomesOf config tree verifier) := by
    refine List.flatMap_congr fun g hg => ?_
    unfold outcomesOf
    rw [MemoryTree.sources_addFile_of_apart h hknown fun hsame =>
      hapart g hg (hparent.symm.trans hsame)]
  obtain ⟨earlier, source, later, hsame, hstem, houtcomes, houtcomes'⟩ :=
    exists_outcomesOf_addFile verifier h hknown hparent hnew hext
  refine ⟨before.flatMap (outcomesOf config tree verifier) ++ earlier, source,
    later ++ after.flatMap (outcomesOf config tree verifier), hsame, hstem, ?_, ?_⟩
  · rw [outcomesBelow, hsplit, List.flatMap_append, List.flatMap_cons, houtcomes]
    simp only [List.append_assoc]
  · rw [outcomesBelow, hgroups, hsplit, List.flatMap_append, List.flatMap_cons, houtcomes',
      hothers fun g hg hsame => hbefore g hg group List.mem_cons_self hsame.symm, hothers hafter]
    simp only [List.append_assoc, List.cons_append]

theorem outputDirs_append (config : Config) (groups groups' : List Group) (outcomes : List Outcome) :
    outputDirs config (groups ++ groups') outcomes =
      outputDirs config groups outcomes ++ outputDirs config groups' outcomes := by
  unfold outputDirs
  rw [List.filter_append, List.map_append]

/-- An outcome brings no directory along if its group is none of these, or had an outcome before. -/
theorem outputDirs_of_old {groups : List Group} {earlier later : List Outcome} {outcome : Outcome}
    (hold : ∀ g ∈ groups, outcome.group = g.name → ∃ o ∈ earlier ++ later, o.group = g.name) :
    outputDirs config groups (earlier ++ outcome :: later) =
      outputDirs config groups (earlier ++ later) := by
  unfold outputDirs
  refine congrArg _ (List.filter_congr fun g hg => ?_)
  rw [Bool.eq_iff_iff]
  simp only [List.any_eq_true, decide_eq_true_iff]
  constructor
  · rintro ⟨o, ho, hname⟩
    rcases List.mem_append.mp ho with hearlier | hrest
    · exact ⟨o, List.mem_append_left _ hearlier, hname⟩
    · rcases List.mem_cons.mp hrest with rfl | hlater
      · exact hold g hg hname
      · exact ⟨o, List.mem_append_right _ hlater, hname⟩
  · rintro ⟨o, ho, hname⟩
    exact ⟨o, List.append_subset.mpr ⟨List.subset_append_left _ _, List.subset_append_of_subset_right
      _ (List.subset_cons_self _ _)⟩ ho, hname⟩

/-- The first outcome of a group brings its directory along. -/
theorem exists_outputDirs_of_first {groups : List Group} (hnodup : (groups.map Group.name).Nodup)
    (hgroup : group ∈ groups) {earlier later : List Outcome} {outcome : Outcome}
    (hname : outcome.group = group.name) (hfirst : ∀ o ∈ earlier ++ later, o.group ≠ group.name) :
    ∃ before after, outputDirs config groups (earlier ++ later) = before ++ after ∧
      outputDirs config groups (earlier ++ outcome :: later) =
        before ++ config.layout.outputDir group.name :: after := by
  obtain ⟨before, after, rfl⟩ := List.append_of_mem hgroup
  -- the names of groups differ, so nothing changes for the others
  rw [List.map_append, List.map_cons, List.nodup_append, List.nodup_cons] at hnodup
  obtain ⟨-, ⟨hafter, -⟩, hbefore⟩ := hnodup
  have hothers {others : List Group} (hapart : ∀ g ∈ others, group.name ≠ g.name) :
      outputDirs config others (earlier ++ outcome :: later) =
        outputDirs config others (earlier ++ later) :=
    outputDirs_of_old fun g hg hsame => absurd (hname.symm.trans hsame) (hapart g hg)
  have hnone : outputDirs config [group] (earlier ++ later) = [] := by
    have hidle : ((earlier ++ later).any fun o => o.group = group.name) = false :=
      List.any_eq_false.mpr fun o ho hsame => hfirst o ho (of_decide_eq_true hsame)
    rw [outputDirs, List.filter_singleton, hidle]
    rfl
  have hone : outputDirs config [group] (earlier ++ outcome :: later) =
      [config.layout.outputDir group.name] := by
    simp [outputDirs, hname]
  have hcons (outcomes : List Outcome) : outputDirs config (group :: after) outcomes =
      outputDirs config [group] outcomes ++ outputDirs config after outcomes :=
    outputDirs_append config [group] after outcomes
  refine ⟨outputDirs config before (earlier ++ later), outputDirs config after (earlier ++ later),
    ?_, ?_⟩
  · rw [outputDirs_append, hcons, hnone, List.nil_append]
  · rw [outputDirs_append, hcons, hone,
      hothers fun g hg hsame => hbefore _ (List.mem_map_of_mem hg) _ List.mem_cons_self hsame.symm,
      hothers fun g hg hsame => hafter (hsame ▸ List.mem_map_of_mem hg), List.singleton_append]

/-! ## Two runs -/

/-- What a second run leaves behind when it finds one source more in a group than the first one did:
the outcome of that source, at its place in the order of outcomes. -/
structure Gains (config : Config) (verifier : ScriptedVerifier) (group : Group) (path : Path)
    (first second : Yield) (earlier : List Outcome) (outcome : Outcome) (later : List Outcome) :
    Prop where
  before : first.report.outcomes = earlier ++ later
  after : second.report.outcomes = earlier ++ outcome :: later
  ordered : second.report.outcomes.Pairwise Outcome.Before
  named : outcome.group = group.name
  source : outcome.source.Same path
  target : ∃ stem, path.stem? = some stem ∧ outcome.target = config.layout.target group.name stem
  status : outcome.status = verifier.statusOf path
  visited : second.report.groupsVisited = first.report.groupsVisited
  told : second.told = first.told
  asked : first.asked = (earlier ++ later).map (Outcome.invocation config.verifier) ∧
    second.asked = (earlier ++ outcome :: later).map (Outcome.invocation config.verifier)
  /-- Nothing is made for a group that had outcomes before. -/
  kept : (∃ o ∈ first.report.outcomes, o.group = group.name) → second.made = first.made
  /-- The output directory of the group is made for its first outcome. -/
  made : (∀ o ∈ first.report.outcomes, o.group ≠ group.name) →
    ∃ before after, first.made = before ++ after ∧
      second.made = before ++ config.layout.outputDir group.name :: after

/-- Outcomes with one of a new source among them, told as what two runs leave behind. -/
theorem gains_of_insert (hnodup : ((tree.groups root).map Group.name).Nodup)
    (hgroup : group ∈ tree.groups root) {earlier later : List Outcome} {source : Source}
    (hsource : source.path.Same path) (hstem : path.stem? = some source.stem)
    (hordered : (earlier ++ outcomeOf (Setting.inMemory config) group source
      (verifier.statusOf path) :: later).Pairwise Outcome.Before) :
    Gains config verifier group path (.of config (tree.groups root) (earlier ++ later))
      (.of config (tree.groups root) (earlier ++
        outcomeOf (Setting.inMemory config) group source (verifier.statusOf path) :: later))
      earlier (outcomeOf (Setting.inMemory config) group source (verifier.statusOf path)) later where
  before := rfl
  after := rfl
  ordered := hordered
  named := rfl
  source := hsource
  target := ⟨source.stem, hstem, rfl⟩
  status := rfl
  visited := rfl
  told := rfl
  asked := ⟨rfl, rfl⟩
  kept hold := outputDirs_of_old fun _ _ hname => hname ▸ hold
  made := exists_outputDirs_of_first hnodup hgroup rfl

theorem pairwise_outcomesBelow (verifier : ScriptedVerifier) {additions : List Addition}
    (hreachable : MemoryTree.Reachable additions tree) (hroot : tree.dirs.contains root = true)
    (hwritable : tree.readOnly = false) (hkeep : config.run.onError = .keepGoing) :
    (outcomesBelow config tree verifier root).Pairwise Outcome.Before := by
  have hgrown : (tree, verifier).1.Grown := ⟨additions, hreachable⟩
  have horderly := (Setting.Over.inMemory config).orderly
  have hyields := yields_of_keepGoing verifier hreachable.wellFormed hroot hwritable hkeep
  obtain ⟨visits, hcourse⟩ := execute_course horderly.keeps hgrown root
  have hordered := hcourse.pairwise_before horderly hgrown
  rwa [report_execute hyields.report] at hordered

/-- What the second run leaves behind is told by the tree of the first one. -/
theorem yields_addFile {tree' : MemoryTree} {verifier' : ScriptedVerifier} (h : tree.WellFormed)
    (hroot : tree.dirs.contains root = true) (hwritable : (tree.addFile path).readOnly = false)
    (hkeep : config.run.onError = .keepGoing) (hgroup : group ∈ tree.groups root)
    (hparent : (parentOf path).Same group.path) (htree : tree'.SameContent tree)
    (hscript : verifier'.script = verifier.script) :
    Yields config root (tree'.addFile path, verifier')
      (.of config (tree.groups root) (outcomesBelow config (tree.addFile path) verifier root)) := by
  have hknown := contains_parentOf hgroup hparent
  have hcontent := htree.addFile path
  have hgroups : (tree'.addFile path).groups root = tree.groups root := by
    rw [MemoryTree.groups, hcontent.1, ← MemoryTree.groups]
    exact MemoryTree.groups_addFile h hknown (not_parentOf_same_root h hgroup hparent)
  have hroot' : (tree'.addFile path).dirs.contains root = true := by
    rwa [hcontent.1, MemoryTree.contains_addFile h hknown]
  have hyields := yields_of_keepGoing verifier'
    ((h.addFile path).congr hcontent.1 hcontent.2.1) hroot' (hcontent.2.2.trans hwritable) hkeep
  rwa [hgroups, outcomesBelow_congr hcontent hscript] at hyields

/-- A file that is added to a group between two runs changes one outcome, or none if it was there or
has another extension. The second run may start anew or from what the first one left. -/
theorem execute_addFile {additions : List Addition} {tree' : MemoryTree}
    {verifier' : ScriptedVerifier} {parent : Path} {report : Report}
    (hreachable : MemoryTree.Reachable additions tree) (hwritable : tree.readOnly = false)
    (hkeep : config.run.onError = .keepGoing)
    (hreport : (execute (Setting.inMemory config) root (tree, verifier)).2 = .ok report)
    (hgroup : group ∈ tree.groups root) (hparent : path.parent? = some parent)
    (hsame : parent.Same group.path) (htree : tree'.SameContent tree)
    (hscript : verifier'.script = verifier.script) :
    ∃ first second,
      Yields config root (tree, verifier) first ∧
      Yields config root (tree'.addFile path, verifier') second ∧
      first.report = report ∧ first.told = (tree.groups root).map progressLine ∧
      (containsPath tree.files path = true ∨
          ¬ hasExtension path config.layout.sourceExtension = true → second = first) ∧
      (¬ containsPath tree.files path = true →
        hasExtension path config.layout.sourceExtension = true →
        ∃ earlier outcome later,
          Gains config verifier group path first second earlier outcome later) := by
  have hwf := hreachable.wellFormed
  have hroot := (outcomes_execute hreport).1
  have hdir : (parentOf path).Same group.path := by
    rwa [MemoryTree.parentOf_eq_of_parent? hparent]
  have hknown := contains_parentOf hgroup hdir
  have hwritable' : (tree.addFile path).readOnly = false := by
    rwa [MemoryTree.addFile_eq, MemoryTree.withParent, if_pos hknown]
  have hfirst := yields_of_ok hwf hreport
  have hsecond := yields_addFile hwf hroot hwritable' hkeep hgroup hdir htree hscript
  refine ⟨_, _, hfirst, hsecond, Except.ok.inj (hfirst.report.symm.trans hreport), rfl, ?idle, ?new⟩
  case idle =>
    intro hidle
    rw [outcomesBelow_addFile_of_idle hwf hgroup hdir hidle]
  case new =>
    intro hnew hext
    have hreachable' : MemoryTree.Reachable (additions ++ [.file path]) (tree.addFile path) :=
      hreachable.add (.file path)
    have hroot' : (tree.addFile path).dirs.contains root = true := by
      rwa [MemoryTree.contains_addFile hwf hknown]
    have hordered := pairwise_outcomesBelow verifier hreachable' hroot' hwritable' hkeep
    obtain ⟨earlier, source, later, hsource, hstem, hbefore, hafter⟩ :=
      exists_outcomesBelow_addFile verifier hwf hgroup hdir hnew hext
    rw [hafter] at hordered ⊢
    rw [hbefore]
    exact ⟨earlier, _, later,
      gains_of_insert (hwf.nodup_groupNames root) hgroup hsource hstem hordered⟩

/-- The group that had no source gets one, under another spelling of its path; the second run goes on
from where the first one ended and makes one directory more. -/
theorem execute_addFile_gap :
    let config : Config := { layout := { outputRoot := Path.ofString "/logs" } }
    let root := Path.ofString "/data"
    let group : Group := ⟨Utf8.encode "beta", Path.ofString "/data/beta"⟩
    let path := Path.ofString "/data/./beta/b.bpl"
    let start := (MemoryTree.ofAdditions gapAdditions, ({} : ScriptedVerifier))
    let left := (execute (Setting.inMemory config) root start).1.state
    let again := (left.1.addFile path, left.2)
    left.1.created = [Path.ofString "/logs/alpha", Path.ofString "/logs/gamma"] ∧
      (execute (Setting.inMemory config) root again).1.state.1.created = left.1.created ++
        [Path.ofString "/logs/alpha", Path.ofString "/logs/beta", Path.ofString "/logs/gamma"] ∧
      ∃ first second earlier outcome later, Yields config root start first ∧
        Yields config root again second ∧
        second.report.outcomes.map Outcome.group = ["alpha", "beta", "gamma", "gamma"].map Utf8.encode ∧
        Gains config start.2 group path first second earlier outcome later := by
  intro config root group path start left again
  have hreport : (execute (Setting.inMemory config) root start).2 =
      .ok (execute (Setting.inMemory config) root start).1.report := by decide +kernel
  have hgroup : group ∈ start.1.groups root := by decide +kernel
  have hparent : path.parent? = some (Path.ofString "/data/./beta") := by decide +kernel
  have hsame : (Path.ofString "/data/./beta").Same group.path := by decide +kernel
  have hleft : left.1.SameContent start.1 :=
    ⟨by decide +kernel, by decide +kernel, by decide +kernel⟩
  have hscript : left.2.script = start.2.script := by decide +kernel
  obtain ⟨first, second, hfirst, hsecond, -, -, -, hgains⟩ :=
    execute_addFile (MemoryTree.reachable_ofAdditions gapAdditions) rfl rfl hreport hgroup hparent
      hsame hleft hscript
  obtain ⟨earlier, outcome, later, hgain⟩ := hgains (by decide +kernel) (by decide +kernel)
  refine ⟨by decide +kernel, by decide +kernel, first, second, earlier, outcome, later, hfirst, hsecond,
    ?_, hgain⟩
  rw [← report_execute hsecond.report]
  decide +kernel

end Batch

end BatchVerify
