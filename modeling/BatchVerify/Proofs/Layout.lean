import BatchVerify.Proofs.Config.Validation
import BatchVerify.Proofs.Path.Extension
import BatchVerify.Proofs.Text.Ascii

/-!
# Where prover logs go

A prover log lies in the directory of its group, which lies in the output root, and its path tells
the group and the stem apart from all others (`Layout.target_injective`), whatever the extension. An
extension that validation lets through makes for a plain file name (`Layout.components_target`), so
that the prover logs mirror the tree (`Layout.mirrors_of_validate`). It is the name of a source only if
one extension ends with the other (`extension_of_name_eq`).
-/

namespace BatchVerify

theorem Group.ofPath?_eq_some_iff {path : Path} {group : Group} :
    Group.ofPath? path = some group ↔ group.path = path ∧ path.name? = some group.name := by
  obtain ⟨name, groupPath⟩ := group
  unfold Group.ofPath?
  cases path.name? with
  | none => simp
  | some pathName => simp [and_comm, eq_comm]

/-- The stem of a source is not empty and holds no separator. -/
theorem Source.stem_of_matching? {path : Path} {extension : String} {source : Source}
    (h : Source.matching? path extension = some source) :
    source.stem ≠ [] ∧ Bytes.slash ∉ source.stem := by
  obtain ⟨-, hname, hstem, -⟩ := Source.matching?_eq_some_iff.mp h
  exact ⟨hstem, fun hmem => (Path.proper_of_name? hname).slash (List.mem_append_left _ hmem)⟩

/-- With a stem before it and something behind it, a dot makes a name. -/
theorem properName_of_stem {stem extension : Bytes} (hstem : stem ≠ []) (hext : extension ≠ [])
    (hslash : Bytes.slash ∉ stem) (hslash' : Bytes.slash ∉ extension) :
    ProperName (stem ++ Bytes.dot :: extension) := by
  have hlength : 3 ≤ (stem ++ Bytes.dot :: extension).length := by
    have hone := List.length_pos_iff.mpr hstem
    have htwo := List.length_pos_iff.mpr hext
    rw [List.length_append, List.length_cons]
    omega
  refine
    { slash := ?slash
      nonempty := fun h => by simp [h] at hlength
      not_current := fun h => by simp [h] at hlength
      not_parent := fun h => by simp [h] at hlength }
  case slash =>
    rw [List.mem_append, List.mem_cons, not_or, not_or]
    exact ⟨hslash, by decide, hslash'⟩

namespace Layout

variable {layout : Layout} {group group' stem stem' : Bytes}

theorem components_outputDir (layout : Layout) (hgroup : ProperName group) :
    (layout.outputDir group).components = layout.outputRoot.components ++ [.name group] :=
  Path.components_join_name layout.outputRoot hgroup

theorem outputDir_injective (hgroup : ProperName group) (hgroup' : ProperName group')
    (h : (layout.outputDir group).Same (layout.outputDir group')) : group = group' := by
  have heq := h.symm
  unfold Path.Same at heq
  rw [components_outputDir layout hgroup, components_outputDir layout hgroup'] at heq
  have hlast := List.append_cancel_left heq
  simpa using hlast.symm

/-- The directory of a group is not the empty path, so a target below it is what comes after a
separator. -/
theorem bytes_outputDir_ne_nil (layout : Layout) (hgroup : ProperName group) :
    (layout.outputDir group).bytes ≠ [] := by
  intro hnil
  have hcomponents := components_outputDir layout hgroup
  rw [show layout.outputDir group = ⟨[]⟩ from congrArg Path.mk hnil, Path.components_nil] at hcomponents
  simp at hcomponents

/-- A stem and a dot make the first piece of a target below the directory of its group stand for a
component, whatever follows. -/
theorem ofPiece?_isSome_of_stem (hstem : stem ≠ []) (rest : Bytes) :
    (Component.ofPiece? (stem ++ Bytes.dot :: rest)).isSome := by
  obtain ⟨b, bytes, rfl⟩ := List.exists_cons_of_ne_nil hstem
  have hlength : (b :: bytes ++ Bytes.dot :: rest).length = bytes.length + rest.length + 2 := by
    simp
    omega
  have hidle : ¬ (b :: bytes ++ Bytes.dot :: rest = [] ∨
      b :: bytes ++ Bytes.dot :: rest = [Bytes.dot]) := by
    rintro (hnil | hdot)
    · simp at hnil
    · rw [hdot] at hlength
      simp at hlength
  unfold Component.ofPiece?
  rw [if_neg hidle]
  split_ifs <;> rfl

/-- What stands in a target after the group: a component that the stem and the first piece of the
extension make, then components that are up to the extension alone. -/
theorem components_target_of_stem (layout : Layout) :
    ∃ first rest, ∀ {group stem : Bytes}, ProperName group → stem ≠ [] → Bytes.slash ∉ stem →
      ∃ component, Component.ofPiece? (stem ++ Bytes.dot :: first) = some component ∧
        (layout.target group stem).components =
          layout.outputRoot.components ++ .name group :: component :: rest := by
  obtain ⟨first, later, hsplit⟩ := List.exists_cons_of_ne_nil
    (Pieces.split_ne_nil Bytes.slash (Utf8.encode layout.targetExtension))
  refine ⟨first, later.filterMap Component.ofPiece?, fun {group stem} hgroup hstem hslash => ?_⟩
  obtain ⟨component, hcomponent⟩ := Option.isSome_iff_exists.mp (ofPiece?_isSome_of_stem hstem first)
  refine ⟨component, hcomponent, ?_⟩
  have hpieces : Pieces.split Bytes.slash (stem ++ Bytes.dot :: Utf8.encode layout.targetExtension) =
      (stem ++ Bytes.dot :: first) :: later := by
    have hdotted : Bytes.slash ∉ stem ++ [Bytes.dot] := by
      rw [List.mem_append, List.mem_singleton, not_or]
      exact ⟨hslash, by decide⟩
    obtain ⟨first', later', hsplit', hjoined⟩ :=
      Pieces.split_append_of_not_mem hdotted (Utf8.encode layout.targetExtension)
    cases hsplit.symm.trans hsplit'
    simpa using hjoined
  have hrelative :
      (Path.mk (stem ++ Bytes.dot :: Utf8.encode layout.targetExtension)).isAbsolute = false := by
    obtain ⟨b, bytes, rfl⟩ := List.exists_cons_of_ne_nil hstem
    have hne : Bytes.slash ≠ b := (List.ne_and_not_mem_of_not_mem_cons hslash).1
    simpa [Path.isAbsolute] using hne.symm
  rw [target, Path.components_join (bytes_outputDir_ne_nil layout hgroup) hrelative,
    components_outputDir layout hgroup]
  show _ ++ (Pieces.split Bytes.slash (stem ++ Bytes.dot :: Utf8.encode _)).filterMap _ = _
  rw [hpieces, List.filterMap_cons_some hcomponent, List.append_assoc, List.singleton_append]

/-- Two targets below one output root that are one path belong to one group and one stem. -/
theorem target_injective (layout : Layout) (hgroup : ProperName group) (hgroup' : ProperName group')
    (hstem : stem ≠ [] ∧ Bytes.slash ∉ stem) (hstem' : stem' ≠ [] ∧ Bytes.slash ∉ stem')
    (h : (layout.target group stem).Same (layout.target group' stem')) :
    group = group' ∧ stem = stem' := by
  obtain ⟨first, rest, htarget⟩ := components_target_of_stem layout
  obtain ⟨component, hpiece, hcomponents⟩ := htarget hgroup hstem.1 hstem.2
  obtain ⟨component', hpiece', hcomponents'⟩ := htarget hgroup' hstem'.1 hstem'.2
  unfold Path.Same at h
  rw [hcomponents, hcomponents'] at h
  have hbelow := List.append_cancel_left h
  simp only [List.cons.injEq, Component.name.injEq, and_true] at hbelow
  obtain ⟨hgroups, rfl⟩ := hbelow
  -- one component comes from one piece, and the pieces differ in their stems only
  exact ⟨hgroups, List.append_cancel_right (Component.ofPiece?_injective hpiece hpiece')⟩

theorem properName_target (layout : Layout) (hext : layout.targetExtension.toList ≠ [])
    (hslash : '/' ∉ layout.targetExtension.toList) (hstem : stem ≠ []) (hstemSlash : Bytes.slash ∉ stem) :
    ProperName (stem ++ Bytes.dot :: Utf8.encode layout.targetExtension) :=
  properName_of_stem hstem (mt Utf8.encode_eq_nil_iff.mp hext) hstemSlash
    (mt (Utf8.slash_mem_encode_iff _).mp hslash)

/-- An extension that is not empty and holds no separator makes a target a plain file in the
directory of its group. -/
theorem components_target (layout : Layout) (hext : layout.targetExtension.toList ≠ [])
    (hslash : '/' ∉ layout.targetExtension.toList) (hgroup : ProperName group) (hstem : stem ≠ [])
    (hstemSlash : Bytes.slash ∉ stem) :
    (layout.target group stem).components = layout.outputRoot.components ++
      [.name group, .name (stem ++ Bytes.dot :: Utf8.encode layout.targetExtension)] := by
  have hname := layout.properName_target hext hslash hstem hstemSlash
  rw [target, Path.components_join_name _ hname, components_outputDir layout hgroup,
    List.append_assoc, List.singleton_append]

/-- The directory of such a target is that of its group, as it is spelled. -/
theorem parent?_target (layout : Layout) (hext : layout.targetExtension.toList ≠ [])
    (hslash : '/' ∉ layout.targetExtension.toList) (hgroup : ProperName group) (hstem : stem ≠ [])
    (hstemSlash : Bytes.slash ∉ stem) :
    (layout.target group stem).parent? = some (layout.outputDir group) :=
  Path.parent?_join_name layout.outputRoot hgroup (layout.properName_target hext hslash hstem hstemSlash)

/-- The directory of a group lies right below the output root, however that is spelled. -/
theorem parent?_outputDir (layout : Layout) (hgroup : ProperName group) :
    ∃ parent, (layout.outputDir group).parent? = some parent ∧ parent.Same layout.outputRoot := by
  have hname : (layout.outputDir group).name? = some group := Path.name?_join_name _ hgroup
  obtain ⟨parent, hparent⟩ := Option.isSome_iff_exists.mp
    (Path.parent?_isSome_of_name? (Option.isSome_of_eq_some hname))
  refine ⟨parent, hparent, ?_⟩
  rw [Path.Same, Path.components_of_parent? hparent, components_outputDir layout hgroup,
    List.dropLast_concat]

/-- Below the output root there is the directory of the group, and in it the prover log of the source. -/
structure Mirrors (layout : Layout) (group : Group) (source : Source) : Prop where
  name : (layout.target group.name source.stem).name? =
    some (source.stem ++ Bytes.dot :: Utf8.encode layout.targetExtension)
  proper : ProperName (source.stem ++ Bytes.dot :: Utf8.encode layout.targetExtension)
  dir : (layout.target group.name source.stem).parent? = some (layout.outputDir group.name)
  dirName : (layout.outputDir group.name).name? = some group.name
  root : ∃ parent, (layout.outputDir group.name).parent? = some parent ∧
    parent.Same layout.outputRoot
  components : (layout.target group.name source.stem).components =
    layout.outputRoot.components ++
      [.name group.name, .name (source.stem ++ Bytes.dot :: Utf8.encode layout.targetExtension)]
  /-- An extension with a dot in it would be cut there. -/
  cut : '.' ∉ layout.targetExtension.toList →
    (layout.target group.name source.stem).stem? = some source.stem ∧
      (layout.target group.name source.stem).extension? = some (Utf8.encode layout.targetExtension)

/-- Under a configuration in normal form every source of a group has its prover log where the layout
tells, whatever names and output root are made of. -/
theorem mirrors_of_validate {written config : Config} {groupPath path : Path} {group : Group}
    {extension : String} {source : Source} (hvalid : written.validate = .ok config)
    (hgroup : Group.ofPath? groupPath = some group)
    (hsource : Source.matching? path extension = some source) :
    config.layout.Mirrors group source := by
  have haccepted : config.Accepted := Or.inr ⟨written, hvalid⟩
  obtain ⟨hext, hslash⟩ := haccepted.targetExtension
  have hgroup := Path.proper_of_name? (Group.ofPath?_eq_some_iff.mp hgroup).2
  obtain ⟨hstem, hstemSlash⟩ := Source.stem_of_matching? hsource
  have hname := config.layout.properName_target hext hslash hstem hstemSlash
  have htarget : (config.layout.target group.name source.stem).name? = some _ :=
    Path.name?_join_name _ hname
  refine
    { name := htarget
      proper := hname
      dir := config.layout.parent?_target hext hslash hgroup hstem hstemSlash
      dirName := Path.name?_join_name _ hgroup
      root := config.layout.parent?_outputDir hgroup
      components := config.layout.components_target hext hslash hgroup hstem hstemSlash
      cut := fun hdot => ?_ }
  have hsplit := splitExtension_eq_iff.mpr ⟨rfl, hstem, mt (Utf8.dot_mem_encode_iff _).mp hdot⟩
  unfold Path.stem? Path.extension?
  rw [htarget, Option.map_some, Option.bind_some, hsplit]
  exact ⟨rfl, rfl⟩

/-- Names of dots alone, below the empty output root and above it. -/
theorem mirrors_of_dots :
    let group : Group := ⟨Utf8.encode "...", Path.ofString "/data/.../"⟩
    let source : Source := ⟨Path.ofString "/data/.../...bpl", Utf8.encode ".."⟩
    let bare : Config := { layout := { outputRoot := Path.ofString "", targetExtension := "." } }
    let above : Config := { layout := { outputRoot := Path.ofString ".." } }
    bare.layout.Mirrors group source ∧
      bare.layout.target group.name source.stem = Path.ofString ".../...." ∧
      above.layout.Mirrors group source ∧
      above.layout.target group.name source.stem = Path.ofString "../.../...smt2" ∧
      (above.layout.target group.name source.stem).stem? = some (Utf8.encode "..") := by
  intro group source bare above
  have hgroup : Group.ofPath? group.path = some group := by decide +kernel
  have hsource : Source.matching? source.path "bpl" = some source := by decide +kernel
  have hbare : Config.validate { layout := { outputRoot := Path.ofString "", targetExtension := ".." } } =
      .ok bare := by decide +kernel
  have habove : Config.validate above = .ok above := by decide +kernel
  have hmirrors := mirrors_of_validate habove hgroup hsource
  exact ⟨mirrors_of_validate hbare hgroup hsource, by decide +kernel, hmirrors, by decide +kernel,
    (hmirrors.cut (by decide)).1⟩

end Layout

/-- Of two names that are one, cut at a dot each, the one extension ends with the other, if that has
no dot. -/
theorem extension_of_name_eq {stem stem' : Bytes} {extension extension' : String}
    (h : stem ++ Bytes.dot :: Utf8.encode extension = stem' ++ Bytes.dot :: Utf8.encode extension')
    (hdot : Bytes.dot ∉ Utf8.encode extension') :
    extension = extension' ∨ ∃ before, extension = before ++ "." ++ extension' := by
  by_cases hplain : '.' ∈ extension.toList
  · -- the last dot of the one extension is the one before the other
    obtain ⟨after, before, hsplit, hafter⟩ :=
      List.eq_append_cons_of_mem (List.mem_reverse.mpr hplain)
    have hext : extension = String.ofList before.reverse ++ "." ++ String.ofList after.reverse := by
      rw [← String.toList_inj]
      have hreverse := congrArg List.reverse hsplit
      rw [List.reverse_reverse] at hreverse
      simpa using hreverse
    have hlast : Bytes.dot ∉ Utf8.encode (String.ofList after.reverse) := by
      rw [Utf8.dot_mem_encode_iff]
      simpa using hafter
    refine Or.inr ⟨String.ofList before.reverse, ?_⟩
    have hbytes : Utf8.encode extension = Utf8.encode (String.ofList before.reverse) ++
        Bytes.dot :: Utf8.encode (String.ofList after.reverse) := by
      conv_lhs => rw [hext]
      rw [Utf8.encode_append, Utf8.encode_append, List.append_assoc]
      rfl
    rw [hbytes, ← List.cons_append, ← List.append_assoc] at h
    have htail := (Pieces.eq_of_append_cons_eq h hlast hdot).2
    rw [← Utf8.encode_injective htail]
    exact hext
  · have hbytes := (Pieces.eq_of_append_cons_eq h (mt (Utf8.dot_mem_encode_iff _).mp hplain) hdot).2
    exact Or.inl (Utf8.encode_injective hbytes)

end BatchVerify
