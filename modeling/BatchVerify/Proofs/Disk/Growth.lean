import BatchVerify.Proofs.Disk.Walk

/-!
# Disks that grow

Making directories only ever puts directories where nothing was (`Disk.grows_makeDirectories`), and
adding something at a plain path puts it there and nothing else anywhere (`Disk.puts_add_directory`,
`Disk.puts_add_file`).
-/

namespace BatchVerify.Disk

variable {disk after later : Disk} {name last : Bytes} {here : Location} {node : Node}
  {names init : List Bytes}

/-! ## One thing more -/

/-- Something is put where names lead to, and all else is as it was. -/
structure Puts (disk after : Disk) (names : List Bytes) (node : Node) : Prop where
  workDir : after.workDir = disk.workDir
  node? : ∀ place, after.node? place =
    if place = names.reverse ++ disk.workDir then some node else disk.node? place

theorem workDir_of_insert? {place : Location} (h : disk.insert? place node = some after) :
    after.workDir = disk.workDir := by
  unfold insert? at h
  split_ifs at h
  cases h
  rfl

theorem free_of_insert? {place : Location} (h : disk.insert? place node = some after) :
    disk.node? place = none := by
  unfold insert? at h
  split_ifs at h with hfree
  obtain ⟨hnew, hrooted⟩ := hfree
  cases place with
  | nil => exact hrooted.elim
  | cons name here =>
    refine Option.eq_none_iff_forall_ne_some.mpr fun found hfound => hnew ?_
    exact List.mem_map.mpr ⟨_, node?_cons_eq_some_iff.mp hfound, rfl⟩

theorem exists_insert? (hname : IsName name) (hdir : disk.node? here = some .directory)
    (hfree : disk.node? (name :: here) = none) (node : Node) :
    ∃ after, disk.insert? (name :: here) node = some after := by
  have hnew : name :: here ∉ disk.nodes.map (·.1) := by
    intro hmem
    obtain ⟨⟨place, found⟩, hentry, rfl⟩ := List.mem_map.mp hmem
    rw [node?_cons_eq_some_iff.mpr hentry] at hfree
    cases hfree
  have hrooted : Rooted disk.nodes (name :: here) := by
    refine ⟨hname, ?_⟩
    cases here with
    | nil => exact Or.inl rfl
    | cons first parent => exact Or.inr (node?_cons_eq_some_iff.mp hdir)
  exact ⟨_, dif_pos ⟨hnew, hrooted⟩⟩

theorem puts_of_insert? (h : disk.insert? (last :: (init.reverse ++ disk.workDir)) node = some after) :
    disk.Puts after (init ++ [last]) node where
  workDir := workDir_of_insert? h
  node? place := by
    rw [node?_of_insert? h, List.reverse_append, List.reverse_singleton, List.singleton_append,
      List.cons_append]

theorem Puts.under? (h : disk.Puts after names node) (other : List Bytes) :
    after.under? other = if other = names then some node else disk.under? other := by
  rw [Disk.under?, h.workDir, h.node?, Disk.under?]
  refine if_congr ?_ rfl rfl
  rw [List.append_cancel_right_eq, List.reverse_inj]

/-- What is put where it is already changes nothing. -/
theorem puts_self (h : disk.under? names = some node) : disk.Puts disk names node where
  workDir := rfl
  node? place := by
    split_ifs with hplace
    · rw [hplace]
      exact h
    · rfl

/-! ## More directories -/

/-- There are more directories, and all else is as it was. -/
structure Grows (disk after : Disk) : Prop where
  workDir : after.workDir = disk.workDir
  node? : ∀ place, after.node? place = disk.node? place ∨
    disk.node? place = none ∧ after.node? place = some .directory

theorem Grows.refl (disk : Disk) : disk.Grows disk := ⟨rfl, fun _ => Or.inl rfl⟩

theorem Grows.trans (h : disk.Grows after) (h' : after.Grows later) : disk.Grows later where
  workDir := h'.workDir.trans h.workDir
  node? place := by
    rcases h.node? place with heq | ⟨hnone, hdir⟩ <;> rcases h'.node? place with heq' | ⟨hnone', hdir'⟩
    · exact Or.inl (heq'.trans heq)
    · exact Or.inr ⟨heq ▸ hnone', hdir'⟩
    · exact Or.inr ⟨hnone, heq'.trans hdir⟩
    · exact Or.inr ⟨hnone, hdir'⟩

theorem Grows.under?_cases (h : disk.Grows after) (names : List Bytes) :
    after.under? names = disk.under? names ∨
      disk.under? names = none ∧ after.under? names = some .directory := by
  unfold Disk.under?
  rw [h.workDir]
  exact h.node? _

/-- What is there stays. -/
theorem Grows.under? (h : disk.Grows after) (hnode : disk.under? names = some node) :
    after.under? names = some node := by
  rcases h.under?_cases names with heq | ⟨hnone, -⟩
  · rw [heq, hnode]
  · rw [hnone] at hnode
    cases hnode

theorem grows_of_insert? {place : Location} (h : disk.insert? place .directory = some after) :
    disk.Grows after where
  workDir := workDir_of_insert? h
  node? other := by
    rw [node?_of_insert? h]
    split_ifs with hplace
    · subst hplace
      exact Or.inr ⟨free_of_insert? h, rfl⟩
    · exact Or.inl rfl

theorem grows_makeDirectory {path : Path} (h : disk.makeDirectory path = .ok after) :
    disk.Grows after := by
  unfold makeDirectory at h
  cases hreach : disk.reachName path with
  | error cause =>
    rw [hreach] at h
    cases h
  | ok reached =>
    rw [hreach] at h
    cases reached with
    | place place => cases h
    | free directory name =>
      cases hinsert : disk.insert? (name :: directory) .directory with
      | none => simp [bind, Except.bind, hinsert] at h
      | some made =>
        simp only [bind, Except.bind, hinsert, Except.ok.injEq] at h
        subst h
        exact grows_of_insert? hinsert

theorem grows_settle (path : Path) (disk : Disk) : disk.Grows (makeChain.settle path disk).2 := by
  unfold makeChain.settle
  cases hmake : disk.makeDirectory path with
  | error cause => exact Grows.refl disk
  | ok made => exact grows_makeDirectory hmake

theorem grows_makeChain (paths : List Path) (disk : Disk) : disk.Grows (makeChain paths disk).2 := by
  induction paths generalizing disk with
  | nil => exact Grows.refl disk
  | cons path above ih =>
    rw [makeChain]
    split_ifs with hempty
    · exact Grows.refl disk
    · cases hmake : disk.makeDirectory path with
      | ok made => exact grows_makeDirectory hmake
      | error cause =>
        dsimp only
        split_ifs with hmissing
        · have habove := ih disk
          rcases hmade : makeChain above disk with ⟨_ | _, made⟩ <;> rw [hmade] at habove
          · exact habove
          · exact habove.trans (grows_settle path made)
        · exact Grows.refl disk

/-- Making directories puts directories where nothing was, whether it succeeds or fails. -/
theorem grows_makeDirectories (disk : Disk) (path : Path) : disk.Grows (disk.makeDirectories path).2 :=
  grows_makeChain path.ancestors disk

/-! ## Additions at plain paths -/

/-- The directories above a path come after it. -/
theorem exists_ancestors (path : Path) : ∃ above, path.ancestors = path :: above := by
  unfold Path.ancestors
  cases path.bytes.length with
  | zero => exact ⟨[], rfl⟩
  | succ n =>
    rw [Path.upward]
    split
    · exact ⟨_, rfl⟩
    · exact ⟨[], rfl⟩

/-- A directory that is there already is left as it is. -/
theorem makeDirectories_of_there (hnames : AllNames names)
    (hshort : (Path.ofNames names).bytes.length < maxPathLength)
    (hthere : disk.under? names = some .directory) :
    disk.makeDirectories (Path.ofNames names) = (.ok (), disk) := by
  by_cases hne : names = []
  · subst hne
    rfl
  · have hbytes := Path.bytes_ofNames_ne_nil hne hnames
    obtain ⟨above, habove⟩ := exists_ancestors (Path.ofNames names)
    have hmake : disk.makeDirectory (Path.ofNames names) = .error (.os .exists) := by
      rw [makeDirectory, reachName_ofNames hne hnames hshort,
        walk_found hne hnames hthere Node.directory_ne_link]
      rfl
    have hdir : disk.isDirectory (Path.ofNames names) = true := by
      rw [isDirectory, lookUp_ofNames hne hnames hshort hthere Node.directory_ne_link]
    rw [makeDirectories, habove, makeChain, if_neg hbytes, hmake]
    dsimp only
    rw [if_neg (by decide), makeChain.settled, if_pos hdir]

/-- A directory is put in one that is there, or is there already. -/
theorem puts_add_directory (hnames : AllNames (init ++ [last]))
    (hshort : (Path.ofNames (init ++ [last])).bytes.length < maxPathLength)
    (hparent : disk.under? init = some .directory)
    (hthere : disk.under? (init ++ [last]) = none ∨
      disk.under? (init ++ [last]) = some .directory) :
    ∃ after, disk.add (.directory (Path.ofNames (init ++ [last]))) = .ok after ∧
      disk.Puts after (init ++ [last]) .directory := by
  rcases hthere with hfree | hthere
  · have hfree' := hfree
    rw [under?_concat] at hfree'
    obtain ⟨after, hinsert⟩ := exists_insert? hnames.isName hparent hfree' .directory
    refine ⟨after, ?_, puts_of_insert? hinsert⟩
    have hmake : disk.makeDirectory (Path.ofNames (init ++ [last])) = .ok after := by
      rw [makeDirectory, reachName_ofNames (by simp) hnames hshort, walk_free hnames hparent hfree']
      simp [bind, Except.bind, hinsert]
    obtain ⟨above, habove⟩ := exists_ancestors (Path.ofNames (init ++ [last]))
    rw [add, makeDirectories, habove, makeChain,
      if_neg (Path.bytes_ofNames_ne_nil (by simp) hnames), hmake]
  · refine ⟨disk, ?_, puts_self hthere⟩
    rw [add, makeDirectories_of_there hnames hshort hthere]

/-- An empty file is put in a directory that is there, or is there already. -/
theorem puts_add_file (hnames : AllNames (init ++ [last]))
    (hshort : (Path.ofNames (init ++ [last])).bytes.length < maxPathLength)
    (hparent : disk.under? init = some .directory)
    (hthere : disk.under? (init ++ [last]) = none ∨
      disk.under? (init ++ [last]) = some (.file {})) :
    ∃ after, disk.add (.file (Path.ofNames (init ++ [last]))) = .ok after ∧
      disk.Puts after (init ++ [last]) (.file {}) := by
  have hshort' : (Path.ofNames init).bytes.length < maxPathLength :=
    lt_of_le_of_lt (Path.length_ofNames_le init last) hshort
  rw [add, addFile, Path.parent?_ofNames hnames]
  dsimp only
  rw [makeDirectories_of_there hnames.left hshort' hparent]
  dsimp only
  rw [write, reachFile_ofNames (by simp) hnames hshort]
  rcases hthere with hfree | hthere
  · have hfree' := hfree
    rw [under?_concat] at hfree'
    obtain ⟨after, hinsert⟩ := exists_insert? hnames.isName hparent hfree' (.file {})
    refine ⟨after, ?_, puts_of_insert? hinsert⟩
    rw [walk_free hnames hparent hfree']
    simp [bind, Except.bind, hinsert]
  · refine ⟨disk.setFile ((init ++ [last]).reverse ++ disk.workDir) {}, ?_, rfl, fun place => ?_⟩
    · rw [walk_found (by simp) hnames hthere (Node.file_ne_link _)]
      rw [under?] at hthere
      simp only [bind, Except.bind, hthere, Option.map_none]
    · rw [node?_setFile]
      split_ifs with hplace
      · subst hplace
        show (disk.under? (init ++ [last])).map _ = _
        rw [hthere]
        rfl
      · cases hnode : disk.node? place with
        | none => rfl
        | some node => cases node <;> simp

end BatchVerify.Disk
