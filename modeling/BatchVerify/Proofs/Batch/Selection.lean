import BatchVerify.Proofs.Batch.Coverage
import BatchVerify.Proofs.Batch.Endings
import BatchVerify.Proofs.Layout

/-!
# Extensions that select nothing

The extension of a file is what follows the last dot of its name, so it holds none. One that is
accepted with a dot in it is that of no file, and a run that asks for it never asks the verifier
(`Batch.selects_iff`).
-/

namespace BatchVerify

/-- An extension with a dot in it is no file's. -/
theorem not_hasExtension_of_dot {extension : String} (h : '.' ∈ extension.toList) (path : Path) :
    hasExtension path extension = false := by
  rw [Bool.eq_false_iff]
  intro hext
  unfold hasExtension Path.extension? at hext
  obtain ⟨name, -, hsplit⟩ := Option.bind_eq_some_iff.mp (of_decide_eq_true hext)
  have hcut : splitExtension name = ((splitExtension name).1, some (Utf8.encode extension)) :=
    Prod.ext rfl hsplit
  exact (splitExtension_eq_iff.mp hcut).2.2 ((Utf8.dot_mem_encode_iff extension).mpr h)

theorem Source.matching?_eq_none_of_dot {extension : String} (h : '.' ∈ extension.toList)
    (path : Path) : Source.matching? path extension = none := by
  rw [Source.matching?, not_hasExtension_of_dot h]
  rfl

/-- A group of a tree. -/
def sampleGroup : Group := ⟨Utf8.encode "alpha", Path.ofString "/data/alpha"⟩

/-- A file in that group, with a given extension. -/
def sampleFile (extension : String) : Path :=
  sampleGroup.path.join ⟨Utf8.encode "a" ++ Bytes.dot :: Utf8.encode extension⟩

/-- A root with one group, and in it that file. -/
def sampleAdditions (extension : String) : List Addition :=
  [.directory (Path.ofString "/data"), .file (sampleFile extension)]

section

variable {extension : String} (hext : extension.toList ≠ []) (hslash : '/' ∉ extension.toList)
  (hdot : '.' ∉ extension.toList)

include hext hslash

theorem properName_sampleFile : ProperName (Utf8.encode "a" ++ Bytes.dot :: Utf8.encode extension) :=
  properName_of_stem (List.cons_ne_nil _ _) (mt Utf8.encode_eq_nil_iff.mp hext) (by decide)
    (mt (Utf8.slash_mem_encode_iff _).mp hslash)

theorem parent?_sampleFile : (sampleFile extension).parent? = some sampleGroup.path := by
  have hpath : (Path.ofString "/data").join ⟨sampleGroup.name⟩ = sampleGroup.path := rfl
  have hname : sampleGroup.path.name? = some sampleGroup.name := rfl
  rw [sampleFile, ← hpath]
  exact Path.parent?_join_name _ (Path.proper_of_name? hname) (properName_sampleFile hext hslash)

/-- What the additions make. -/
theorem ofAdditions_sample :
    MemoryTree.ofAdditions (sampleAdditions extension) =
      { dirs :=
          [ (Path.ofString "/data", [sampleGroup.path]),
            (sampleGroup.path, [sampleFile extension]) ]
        files := [sampleFile extension] } := by
  have hparent : MemoryTree.parentOf (sampleFile extension) = sampleGroup.path := by
    rw [MemoryTree.parentOf, parent?_sampleFile hext hslash]
    rfl
  -- all that is unknown is a name that is entered into an empty directory
  have hopened : (({} : MemoryTree).addDir (Path.ofString "/data")).withParent (sampleFile extension) =
      { dirs :=
          [ (Path.ofString "/data", [sampleGroup.path]),
            (sampleGroup.path, []) ] } := by
    rw [MemoryTree.withParent, hparent]
    rfl
  have hbefore : sampleGroup.path.order (Path.ofString "/data") = .gt := rfl
  have hsame : sampleGroup.path.order sampleGroup.path = .eq := rfl
  show (({} : MemoryTree).addDir (Path.ofString "/data")).addFile (sampleFile extension) = _
  rw [MemoryTree.addFile_eq, hopened, hparent]
  simp only [Directories.alter, hbefore, hsame, insertPath]

include hdot

/-- Without a dot, the extension is that of the sample. -/
theorem matching?_sampleFile :
    Source.matching? (sampleFile extension) extension =
      some ⟨sampleFile extension, Utf8.encode "a"⟩ :=
  Source.matching?_eq_some_iff.mpr
    ⟨rfl, Path.name?_join_name _ (properName_sampleFile hext hslash),
      show Utf8.encode "a" ≠ [] from List.cons_ne_nil _ _,
      mt (Utf8.dot_mem_encode_iff _).mp hdot⟩

/-- The sample is the one source of the one group. -/
theorem sources_sample :
    (MemoryTree.ofAdditions (sampleAdditions extension)).sources extension sampleGroup =
      [⟨sampleFile extension, Utf8.encode "a"⟩] := by
  have hother : ¬ (Path.ofString "/data").Same sampleGroup.path := by decide
  have hself : sampleGroup.path.Same sampleGroup.path := Path.Same.refl _
  have hfile : containsPath [sampleFile extension] (sampleFile extension) = true :=
    containsPath_iff.mpr ⟨_, List.mem_singleton_self _, Path.Same.refl _⟩
  rw [MemoryTree.sources, ofAdditions_sample hext hslash]
  simp [Directories.entries?, hother, hself, hfile, matching?_sampleFile hext hslash hdot]

end

namespace Batch

/-- Where directories can be made and nothing is scripted to fail, a run over a known root gets
through. -/
theorem exists_report_of_writable (config : Config) {tree : MemoryTree} {root : Path}
    (hroot : tree.dirs.contains root = true) (hwritable : ¬ tree.readOnly = true) :
    ∃ report, (execute (Setting.inMemory config) root (tree, {})).2 = .ok report := by
  refine exists_report_of_not_aborts hroot hwritable ?_
  rintro ⟨-, group, -, source, -, key, status, hscripted, -⟩
  cases hscripted

/-- A run over the sample gets through, and has verified it. -/
theorem execute_sample (config : Config) (hext : config.layout.sourceExtension.toList ≠ [])
    (hslash : '/' ∉ config.layout.sourceExtension.toList)
    (hdot : '.' ∉ config.layout.sourceExtension.toList) :
    ∃ report, (execute (Setting.inMemory config) (Path.ofString "/data")
        (MemoryTree.ofAdditions (sampleAdditions config.layout.sourceExtension), {})).2 =
          .ok report ∧ report.outcomes ≠ [] := by
  have htree := ofAdditions_sample hext hslash
  have hsources := sources_sample hext hslash hdot
  set tree := MemoryTree.ofAdditions (sampleAdditions config.layout.sourceExtension)
  have hroot : tree.dirs.contains (Path.ofString "/data") = true := by
    rw [htree]
    rfl
  have hgroup : sampleGroup ∈ tree.groups (Path.ofString "/data") := by
    rw [MemoryTree.mem_groups, htree]
    exact ⟨List.mem_singleton_self _, rfl, rfl⟩
  obtain ⟨report, hreport⟩ := exists_report_of_writable config hroot
    (by rw [htree]; exact Bool.false_ne_true)
  refine ⟨report, hreport, fun hnone => ?_⟩
  rw [(outcomes_execute hreport).2, List.flatMap_eq_nil_iff] at hnone
  have hquiet := hnone _ hgroup
  rw [outcomesOf, hsources] at hquiet
  cases hquiet

/-- A run under an extension with a dot verifies nothing and makes no directory. -/
theorem execute_of_dot {σ : Type} (setting : Setting σ)
    (h : '.' ∈ setting.config.layout.sourceExtension.toList) (root : Path) (state : σ) :
    (execute setting root state).1.report.outcomes = [] ∧ effects setting root state = [] := by
  obtain ⟨visits, hcourse⟩ := exists_course setting root state
  have hidle : ∀ visit ∈ visits, visit.answered = [] := by
    intro visit hvisit
    rcases hcourse.listed visit hvisit with hnone | ⟨_, listing, -, -, hprefix⟩
    · exact hnone
    · have hsources : sourcesIn setting listing = [] :=
        List.filterMap_eq_nil_iff.mpr fun path _ => Source.matching?_eq_none_of_dot h path
      rw [hsources, List.prefix_nil, List.map_eq_nil_iff] at hprefix
      exact hprefix
  rw [hcourse.outcomes, hcourse.effects, List.flatMap_eq_nil_iff, List.flatMap_eq_nil_iff]
  constructor
  · intro visit hvisit
    rw [Visit.outcomes, hidle visit hvisit]
    rfl
  · intro visit hvisit
    rw [Visit.effects, if_pos (hidle visit hvisit)]

/-- An extension that is accepted is that of some path just when it has no dot in it. A configuration
that is accepted has runs that verify something if its extension has none; else no run does. -/
theorem selects_iff {field raw extension : String} {written config : Config}
    (haccepted : normalizeExtension field raw = .ok extension)
    (hvalid : written.validate = .ok config) :
    ((∃ path, hasExtension path extension = true) ↔ '.' ∉ extension.toList) ∧
    ('.' ∉ config.layout.sourceExtension.toList →
      ∃ additions root report,
        (execute (Setting.inMemory config) root (MemoryTree.ofAdditions additions, {})).2 =
          .ok report ∧ report.outcomes ≠ []) ∧
    ('.' ∈ config.layout.sourceExtension.toList →
      ∀ {σ : Type} (setting : Setting σ) (root : Path) (state : σ), setting.config = config →
        (execute setting root state).1.report.outcomes = [] ∧ effects setting root state = []) := by
  refine ⟨?_, ?_, ?_⟩
  · obtain ⟨-, hext, hslash, -⟩ := normalizeExtension_eq_ok_iff.mp haccepted
    constructor
    · rintro ⟨path, hpath⟩ hdot
      rw [not_hasExtension_of_dot hdot] at hpath
      cases hpath
    · intro hdot
      refine ⟨sampleFile extension, ?_⟩
      have hsource := matching?_sampleFile hext hslash hdot
      unfold Source.matching? at hsource
      split_ifs at hsource with hsample
      exact hsample
  · intro hdot
    obtain ⟨-, source, target, hsource, -, rfl⟩ := Config.validate_eq_ok_iff.mp hvalid
    obtain ⟨-, hext, hslash, -⟩ := normalizeExtension_eq_ok_iff.mp hsource
    exact ⟨_, _, execute_sample _ hext hslash hdot⟩
  · intro hdot σ setting root state hconfig
    exact execute_of_dot setting (by rw [hconfig]; exact hdot) root state

/-- Written with one dot in front an extension selects something; of two dots one is kept, and nothing
is selected. -/
theorem selects_one_dot :
    (∃ path, hasExtension path "bpl" = true) ∧ (¬ ∃ path, hasExtension path ".bpl" = true) ∧
      (∃ additions root report,
        (execute (Setting.inMemory {}) root (MemoryTree.ofAdditions additions, {})).2 =
          .ok report ∧ report.outcomes ≠ []) ∧
      effects (Setting.inMemory { layout := { sourceExtension := ".bpl" } }) (Path.ofString "/data")
        (MemoryTree.ofAdditions dataAdditions, {}) = [] := by
  have hone : normalizeExtension "layout.source_extension" ".bpl" = .ok "bpl" := rfl
  have htwo : normalizeExtension "layout.source_extension" "..bpl" = .ok ".bpl" := rfl
  have hvalid : Config.validate {} = .ok {} := rfl
  have hdotted : Config.validate { layout := { sourceExtension := "..bpl" } } =
      .ok { layout := { sourceExtension := ".bpl" } } := rfl
  obtain ⟨hpath, hruns, -⟩ := selects_iff hone hvalid
  obtain ⟨hpath', -, hidle⟩ := selects_iff htwo hdotted
  refine ⟨hpath.mpr (by decide), fun h => ?_, hruns (by decide), (hidle (by decide) _ _ _ rfl).2⟩
  exact hpath'.mp h (by decide)

/-- An extension of two parts is accepted, and is that of no path. -/
theorem not_selects_two_parts :
    normalizeExtension "layout.source_extension" "tar.gz" = .ok "tar.gz" ∧
      ¬ ∃ path, hasExtension path "tar.gz" = true := by
  refine ⟨rfl, ?_⟩
  rintro ⟨path, hpath⟩
  rw [not_hasExtension_of_dot (by decide)] at hpath
  cases hpath

end Batch

end BatchVerify
