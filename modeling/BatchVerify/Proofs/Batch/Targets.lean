import BatchVerify.Proofs.Batch.Order

/-!
# The targets of a run

Where an outcome lies settles where its prover log goes (`Outcome.Placed`), so the targets of a run
differ as its sources do (`Batch.execute_keeps_targets_apart`), and no target is a source unless one
tree lies on the other and the extensions fit (`Batch.execute_spares_sources`).
-/

namespace BatchVerify

variable {config : Config} {root : Path} {outcome outcome' : Outcome} {stem stem' : Bytes}

/-- No outcome comes before itself, nor before one of the same group and the same file name. -/
theorem Outcome.Before.ne (h : outcome.Before outcome') :
    ¬ (outcome.group = outcome'.group ∧ outcome.source.name? = outcome'.source.name?) := by
  rintro ⟨hgroup, hsame⟩
  obtain ⟨name, name', hname, hname', hlex⟩ := h
  obtain rfl : name = name' := Option.some.inj (hname.symm.trans (hsame.trans hname'))
  rw [hgroup] at hlex
  rcases Prod.lex_def.mp hlex with hlt | ⟨-, hlt⟩
  · exact List.lt_irrefl _ hlt
  · exact List.lt_irrefl _ hlt

namespace Outcome.Placed

/-- Outcomes with one target are of one group and one file name. -/
theorem eq_of_target_same (h : outcome.Placed config root stem)
    (h' : outcome'.Placed config root stem') (hsame : outcome.target.Same outcome'.target) :
    outcome.group = outcome'.group ∧ outcome.source.name? = outcome'.source.name? := by
  rw [h.target, h'.target] at hsame
  obtain ⟨hgroup, rfl⟩ :=
    config.layout.target_injective h.group h'.group h.stemmed h'.stemmed hsame
  exact ⟨hgroup, h.name?.trans h'.name?.symm⟩

/-- A target that is a source lies as deep below the output root as the source does below the
root, so the roots are one path, and one name is cut at a dot in two ways. -/
theorem same_of_target_same_source (h : outcome.Placed config root stem)
    (h' : outcome'.Placed config root stem')
    (hext : config.layout.targetExtension.toList ≠ [])
    (hslash : '/' ∉ config.layout.targetExtension.toList)
    (hsame : outcome.target.Same outcome'.source) :
    config.layout.outputRoot.Same root ∧
      (config.layout.targetExtension = config.layout.sourceExtension ∨
        ∃ before, config.layout.targetExtension =
          before ++ "." ++ config.layout.sourceExtension) := by
  have htarget := config.layout.components_target hext hslash h.group h.stemmed.1 h.stemmed.2
  rw [← h.target, hsame, h'.source] at htarget
  obtain ⟨hroot, hbelow⟩ := List.append_inj' htarget rfl
  simp only [List.cons.injEq, Component.name.injEq, and_true] at hbelow
  exact ⟨hroot.symm, extension_of_name_eq hbelow.2.symm h'.extension⟩

end Outcome.Placed

namespace Batch

/-- One layout gives one target to one group and one stem only, whatever its output root and its
extensions; and so the targets in a report differ. -/
theorem execute_keeps_targets_apart :
    (∀ (layout : Layout) (dir dir' path path' : Path) (extension extension' : String)
      (group group' : Group) (source source' : Source),
      Group.ofPath? dir = some group → Group.ofPath? dir' = some group' →
      Source.matching? path extension = some source →
      Source.matching? path' extension' = some source' →
      (layout.target group.name source.stem).Same (layout.target group'.name source'.stem) →
      group.name = group'.name ∧ source.stem = source'.stem) ∧
    (∀ {σ : Type} (setting : Setting σ) (sound : σ → Prop) (root : Path) (state : σ)
      (report : Report), setting.Over sound → sound state →
      handedOver (execute setting root state).2 = some report →
      report.outcomes.Pairwise fun outcome outcome' => ¬ outcome.target.Same outcome'.target) := by
  constructor
  · intro layout dir dir' path path' extension extension' group group' source source' hgroup hgroup'
      hsource hsource' hsame
    have hproper := Path.proper_of_name? (Group.ofPath?_eq_some_iff.mp hgroup).2
    have hproper' := Path.proper_of_name? (Group.ofPath?_eq_some_iff.mp hgroup').2
    exact layout.target_injective hproper hproper' (Source.stem_of_matching? hsource)
      (Source.stem_of_matching? hsource') hsame
  · intro σ setting sound root state report hover hstate h
    obtain ⟨rfl, horderly, visits, hcourse⟩ := course_of_handedOver hover hstate h
    refine (hcourse.pairwise_before horderly hstate).imp_of_mem ?_
    intro outcome outcome' hmem hmem' hbefore hsame
    obtain ⟨stem, hplaced⟩ := hcourse.placed horderly hstate hmem
    obtain ⟨stem', hplaced'⟩ := hcourse.placed horderly hstate hmem'
    exact hbefore.ne (hplaced.eq_of_target_same hplaced' hsame)

/-- Two sources whose stems are dots only. -/
def dottedAdditions : List Addition :=
  [ .directory (Path.ofString "/data"),
    .file (Path.ofString "/data/g/..bpl"),
    .file (Path.ofString "/data/g/...bpl") ]

/-- Without a target extension one of these stems makes for the name of a directory above, and the
targets still differ. -/
theorem execute_keeps_targets_apart_dots :
    let layout : Layout := { outputRoot := Path.ofString "out", targetExtension := "" }
    let group : Group := ⟨Utf8.encode "g", Path.ofString "/data/g"⟩
    let group' : Group := ⟨Utf8.encode "g", Path.ofString "g/"⟩
    let source : Source := ⟨Path.ofString "/data/g/..bpl", Utf8.encode "."⟩
    let source' : Source := ⟨Path.ofString "g/..txt", Utf8.encode "."⟩
    (group.name = group'.name ∧ source.stem = source'.stem) ∧
    ∃ report,
      handedOver (execute (Setting.inMemory { layout }) (Path.ofString "/data")
        (MemoryTree.ofAdditions dottedAdditions, {})).2 = some report ∧
      report.outcomes.map Outcome.target =
        [Path.ofString "out/g/...", Path.ofString "out/g/.."] ∧
      report.outcomes.Pairwise fun outcome outcome' => ¬ outcome.target.Same outcome'.target := by
  intro layout group group' source source'
  refine ⟨execute_keeps_targets_apart.1 layout group.path group'.path source.path source'.path "bpl"
    "txt" group group' source source' ?_ ?_ ?_ ?_ ?_, ?_⟩
  · decide +kernel
  · decide +kernel
  · decide +kernel
  · decide +kernel
  · decide +kernel
  · have hreport : handedOver (execute (Setting.inMemory { layout }) (Path.ofString "/data")
        (MemoryTree.ofAdditions dottedAdditions, {})).2 =
        some (execute (Setting.inMemory { layout }) (Path.ofString "/data")
          (MemoryTree.ofAdditions dottedAdditions, {})).1.report := by decide +kernel
    refine ⟨_, hreport, by decide +kernel, ?_⟩
    exact execute_keeps_targets_apart.2 (Setting.inMemory { layout }) _ (Path.ofString "/data")
      (MemoryTree.ofAdditions dottedAdditions, {}) _ (Setting.Over.inMemory _)
      ⟨dottedAdditions, MemoryTree.reachable_ofAdditions dottedAdditions⟩ hreport

/-- With a configuration that was validated, a target of a run is a source of it only where the
output root is the root and the one extension is the other, or ends with it behind a dot. Where the
roots differ, the verifier is not asked to write to any of the sources. -/
theorem execute_spares_sources {σ : Type} {setting : Setting σ} {sound : σ → Prop} {written : Config}
    (hvalid : written.validate = .ok setting.config) (hover : setting.Over sound) (root : Path)
    (state : σ) (hstate : sound state) :
    let outcomes := (execute setting root state).1.report.outcomes
    let layout := setting.config.layout
    (∀ outcome ∈ outcomes, ∀ outcome' ∈ outcomes, outcome.target.Same outcome'.source →
      layout.outputRoot.Same root ∧
        (layout.targetExtension = layout.sourceExtension ∨
          ∃ before, layout.targetExtension = before ++ "." ++ layout.sourceExtension)) ∧
    (¬ layout.outputRoot.Same root → ∀ answer ∈ answers setting root state,
      ∃ target : Path, answer.1.args[2]? = some (Utf8.encode Invocation.logFlag ++ target.bytes) ∧
        ∀ outcome ∈ outcomes, ¬ target.Same outcome.source) := by
  intro outcomes layout
  obtain ⟨-, source, target, -, htarget, hnormal⟩ := Config.validate_eq_ok_iff.mp hvalid
  obtain ⟨-, hext, hslash, -⟩ := normalizeExtension_eq_ok_iff.mp htarget
  have hlayout : layout.targetExtension = target := congrArg (·.layout.targetExtension) hnormal
  rw [← hlayout] at hext hslash
  obtain ⟨visits, hcourse⟩ := execute_course hover.orderly.keeps hstate root
  have hspared : ∀ outcome ∈ outcomes, ∀ outcome' ∈ outcomes,
      outcome.target.Same outcome'.source → layout.outputRoot.Same root ∧
        (layout.targetExtension = layout.sourceExtension ∨
          ∃ before, layout.targetExtension = before ++ "." ++ layout.sourceExtension) := by
    intro outcome hmem outcome' hmem' hsame
    obtain ⟨stem, hplaced⟩ := hcourse.placed hover.orderly hstate hmem
    obtain ⟨stem', hplaced'⟩ := hcourse.placed hover.orderly hstate hmem'
    exact hplaced.same_of_target_same_source hplaced' hext hslash hsame
  refine ⟨hspared, fun hroot answer hanswer => ?_⟩
  -- the verifier is asked about nothing but the outcomes
  rw [answers_eq] at hanswer
  obtain ⟨outcome, hmem, rfl⟩ := List.mem_map.mp hanswer
  exact ⟨outcome.target, rfl, fun outcome' hmem' hsame =>
    hroot (hspared outcome hmem outcome' hmem' hsame).1⟩

/-- A source whose name is the stem of another one with a longer extension. -/
def nestedAdditions : List Addition :=
  [ .directory (Path.ofString "/data"),
    .file (Path.ofString "/data/g/a.bpl"),
    .file (Path.ofString "/data/g/a.x.bpl") ]

/-- The prover log of one source would be the other one if it were written to the root, and lies
apart where it is written elsewhere. -/
theorem execute_spares_sources_nested :
    let config (outputRoot : String) : Config :=
      { layout := { outputRoot := Path.ofString outputRoot, targetExtension := "x.bpl" } }
    let start := (MemoryTree.ofAdditions nestedAdditions, ({} : ScriptedVerifier))
    let root := Path.ofString "/data"
    ((config "/data/.").layout.outputRoot.Same root ∧
      ((config "/data/.").layout.targetExtension = (config "/data/.").layout.sourceExtension ∨
        ∃ before, (config "/data/.").layout.targetExtension =
          before ++ "." ++ (config "/data/.").layout.sourceExtension)) ∧
    (answers (Setting.inMemory (config "/logs")) root start).length = 2 ∧
    ∀ answer ∈ answers (Setting.inMemory (config "/logs")) root start,
      ∃ target : Path, answer.1.args[2]? = some (Utf8.encode Invocation.logFlag ++ target.bytes) ∧
        ∀ outcome ∈ (execute (Setting.inMemory (config "/logs")) root start).1.report.outcomes,
          ¬ target.Same outcome.source := by
  intro config start root
  have hgrown : start.1.Grown := ⟨nestedAdditions, MemoryTree.reachable_ofAdditions nestedAdditions⟩
  have houtcomes : (execute (Setting.inMemory (config "/data/.")) root start).1.report.outcomes =
      [ ⟨Utf8.encode "g", Path.ofString "/data/g/a.bpl", Path.ofString "/data/./g/a.x.bpl",
          .succeeded⟩,
        ⟨Utf8.encode "g", Path.ofString "/data/g/a.x.bpl", Path.ofString "/data/./g/a.x.x.bpl",
          .succeeded⟩ ] := by decide +kernel
  have hvalid : (config "/data/.").validate = .ok (config "/data/.") := by decide +kernel
  have hvalid' : (config "/logs").validate = .ok (config "/logs") := by decide +kernel
  refine ⟨?_, by decide +kernel, ?_⟩
  · refine (execute_spares_sources hvalid (Setting.Over.inMemory (config "/data/.")) root start
      hgrown).1 _ (houtcomes ▸ List.mem_cons_self) _
      (houtcomes ▸ List.mem_cons_of_mem _ List.mem_cons_self) ?_
    decide +kernel
  · exact (execute_spares_sources hvalid' (Setting.Over.inMemory (config "/logs")) root start
      hgrown).2 (by decide +kernel)

end Batch

end BatchVerify
