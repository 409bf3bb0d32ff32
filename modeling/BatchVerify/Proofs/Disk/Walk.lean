import BatchVerify.Proofs.Disk.Plain

/-!
# Walks along names

Where there are no links, a walk along names from a directory ends at the place that the names tell,
or at the free name that is missing there (`Disk.walk_found`, `Disk.walk_free`), whatever it is for.
So a path of names that is not too long leads to what is there (`Disk.lookUp_ofNames`).
-/

namespace BatchVerify

/-- Names are not mistaken for what separators at the end of a path leave. -/
theorem dropTrailing_names {pieces : List Bytes} (h : AllNames pieces) :
    dropTrailing pieces = pieces := by
  unfold dropTrailing
  induction pieces using List.reverseRecOn with
  | nil => rfl
  | append_singleton init last _ =>
    rw [List.reverse_append, List.reverse_singleton, List.singleton_append,
      List.dropWhile_cons_of_neg (by simpa using h.isName.1)]
    simp

theorem Node.directory_ne_link (target : Path) : Node.directory ≠ .link target := nofun

theorem Node.file_ne_link (file : File) (target : Path) : Node.file file ≠ .link target := nofun

namespace Disk

variable {disk : Disk} {name : Bytes} {here place : Location} {node : Node}

/-! ## Places -/

theorem node?_cons_eq_some_iff : disk.node? (name :: here) = some node ↔
    (name :: here, node) ∈ disk.nodes := by
  rw [node?, if_neg (List.cons_ne_nil _ _), List.lookup_eq_some_iff]
  constructor
  · rintro ⟨before, after, heq, -⟩
    rw [heq]
    exact List.mem_append_right _ List.mem_cons_self
  · intro hmem
    obtain ⟨before, after, heq⟩ := List.append_of_mem hmem
    refine ⟨before, after, heq, fun entry hentry => ?_⟩
    -- no other entry is at the place
    have hdistinct := disk.distinct
    rw [heq, List.map_append, List.map_cons] at hdistinct
    have hnew := (List.nodup_append.mp hdistinct).2.2 entry.1 (List.mem_map_of_mem hentry) _
      List.mem_cons_self
    simpa using hnew.symm

/-- What is somewhere has a name and is in a directory. -/
theorem directory_of_node?_cons (h : disk.node? (name :: here) = some node) :
    IsName name ∧ disk.node? here = some .directory := by
  obtain ⟨hname, hparent⟩ := disk.rooted _ (node?_cons_eq_some_iff.mp h)
  refine ⟨hname, ?_⟩
  rcases hparent with rfl | hparent
  · rfl
  · cases here with
    | nil => rfl
    | cons first parent => exact node?_cons_eq_some_iff.mpr hparent

theorem mem_names_iff : name ∈ disk.names here ↔ (disk.node? (name :: here)).isSome := by
  unfold names
  rw [List.mem_filterMap, Option.isSome_iff_exists]
  constructor
  · rintro ⟨⟨place, node⟩, hmem, heq⟩
    cases place with
    | nil => cases heq
    | cons first parent =>
      dsimp only at heq
      split_ifs at heq with hparent
      cases heq
      exact ⟨node, node?_cons_eq_some_iff.mpr (hparent ▸ hmem)⟩
  · rintro ⟨node, hnode⟩
    exact ⟨_, node?_cons_eq_some_iff.mp hnode, by simp⟩

/-- All places on the way to something are directories. -/
theorem directory_of_node?_append {names : List Bytes} (hne : names ≠ [])
    (h : disk.node? (names.reverse ++ here) = some node) : disk.node? here = some .directory := by
  induction names generalizing here with
  | nil => exact absurd rfl hne
  | cons name names ih =>
    rw [List.reverse_cons, List.append_assoc, List.singleton_append] at h
    by_cases hnames : names = []
    · subst hnames
      exact (directory_of_node?_cons h).2
    · exact (directory_of_node?_cons (ih hnames h)).2

/-! ## Walks -/

variable {aim : Aim} {onLink : Location → List Bytes → Except SystemError Reached}

/-- A step of a walk into a directory or to a file. -/
theorem walkWith_cons {rest : List Bytes} (hname : IsName name) (hrest : AllNames rest)
    (hhere : disk.node? here = some .directory) (hnode : disk.node? (name :: here) = some node)
    (hlink : ∀ target, node ≠ .link target) :
    disk.walkWith aim onLink here (name :: rest) = disk.walkWith aim onLink (name :: here) rest := by
  have hproper := properName_of_isName hname
  have htrailing : ¬ (aim = .file ∧ rest ≠ [] ∧ dropTrailing rest = []) :=
    fun h => h.2.1 (dropTrailing_names hrest ▸ h.2.2)
  rw [walkWith, if_neg (by simp [hhere]), if_neg (by simp [hproper.nonempty, hproper.not_current]),
    if_neg hproper.not_parent, if_neg htrailing, if_neg (by have := hname.2.2.2.2.2; omega), hnode]
  cases node with
  | directory => rfl
  | file file => rfl
  | link target => exact absurd rfl (hlink target)

/-- A walk along names to a directory, and on from there. -/
theorem walkWith_append {names later : List Bytes} (hnames : AllNames (names ++ later))
    (hdir : disk.node? (names.reverse ++ here) = some .directory) :
    disk.walkWith aim onLink here (names ++ later) =
      disk.walkWith aim onLink (names.reverse ++ here) later := by
  induction names generalizing here with
  | nil => rfl
  | cons name names ih =>
    obtain ⟨hname, hrest⟩ : IsName name ∧ AllNames (names ++ later) :=
      List.forall_mem_cons.mp hnames
    rw [List.reverse_cons, List.append_assoc, List.singleton_append] at hdir ⊢
    have hnode : disk.node? (name :: here) = some .directory := by
      by_cases hnil : names = []
      · subst hnil
        exact hdir
      · exact directory_of_node?_append hnil hdir
    rw [List.cons_append, walkWith_cons hname hrest (directory_of_node?_cons hnode).2 hnode
      Node.directory_ne_link]
    exact ih hrest hdir

/-- A walk along names ends at what they lead to. -/
theorem walk_found {names : List Bytes} (hne : names ≠ []) (hnames : AllNames names)
    (hnode : disk.node? (names.reverse ++ here) = some node) (hlink : ∀ target, node ≠ .link target) :
    disk.walk aim maxLinks here names = .ok (.place (names.reverse ++ here)) := by
  obtain ⟨init, last, rfl⟩ : ∃ init last, names = init ++ [last] :=
    ⟨_, _, (List.dropLast_append_getLast hne).symm⟩
  rw [List.reverse_append, List.reverse_singleton, List.singleton_append, List.cons_append] at hnode ⊢
  have hdir := (directory_of_node?_cons hnode).2
  show disk.walkWith aim (disk.walk aim 39) here (init ++ [last]) = _
  rw [walkWith_append hnames hdir, walkWith_cons hnames.isName (fun _ h => by cases h) hdir hnode hlink,
    walkWith]

/-- A walk along names ends at the name that is missing in the directory of the last one. -/
theorem walk_free {init : List Bytes} {last : Bytes} (hnames : AllNames (init ++ [last]))
    (hdir : disk.node? (init.reverse ++ here) = some .directory)
    (hfree : disk.node? (last :: (init.reverse ++ here)) = none) :
    disk.walk aim maxLinks here (init ++ [last]) = .ok (.free (init.reverse ++ here) last) := by
  have hlast := hnames.last
  show disk.walkWith aim (disk.walk aim 39) here (init ++ [last]) = _
  rw [walkWith_append hnames hdir, walkWith, if_neg (by simp [hdir]),
    if_neg (by simp [hlast.nonempty, hlast.not_current]), if_neg hlast.not_parent, if_neg (by simp),
    if_neg (by have := hnames.isName.2.2.2.2.2; omega), hfree]
  simp

/-! ## What names lead to -/

/-- What names lead to from the working directory. -/
def under? (disk : Disk) (names : List Bytes) : Option Node :=
  disk.node? (names.reverse ++ disk.workDir)

variable {names init : List Bytes} {last : Bytes}

theorem under?_concat (disk : Disk) (init : List Bytes) (last : Bytes) :
    disk.under? (init ++ [last]) = disk.node? (last :: (init.reverse ++ disk.workDir)) := by
  rw [under?, List.reverse_append, List.reverse_singleton, List.singleton_append, List.cons_append]

theorem reach_ofNames (hne : names ≠ []) (hnames : AllNames names)
    (hshort : (Path.ofNames names).bytes.length < maxPathLength) :
    disk.reach (Path.ofNames names) = disk.walk .target maxLinks disk.workDir names := by
  rw [reach, Path.pieces_ofNames hne hnames hshort, start, Path.isAbsolute_ofNames hne hnames]
  rfl

theorem reachFile_ofNames (hne : names ≠ []) (hnames : AllNames names)
    (hshort : (Path.ofNames names).bytes.length < maxPathLength) :
    disk.reachFile (Path.ofNames names) = disk.walk .file maxLinks disk.workDir names := by
  rw [reachFile, Path.pieces_ofNames hne hnames hshort, start, Path.isAbsolute_ofNames hne hnames]
  rfl

theorem reachName_ofNames (hne : names ≠ []) (hnames : AllNames names)
    (hshort : (Path.ofNames names).bytes.length < maxPathLength) :
    disk.reachName (Path.ofNames names) = disk.walk .name maxLinks disk.workDir names := by
  rw [reachName, Path.pieces_ofNames hne hnames hshort, start, Path.isAbsolute_ofNames hne hnames]
  show disk.walk .name maxLinks disk.workDir (dropTrailing names) = _
  rw [dropTrailing_names hnames]

theorem find_ofNames (hne : names ≠ []) (hnames : AllNames names)
    (hshort : (Path.ofNames names).bytes.length < maxPathLength) (hnode : disk.under? names = some node)
    (hlink : ∀ target, node ≠ .link target) :
    disk.find (Path.ofNames names) = .ok (names.reverse ++ disk.workDir) := by
  rw [find, reach_ofNames hne hnames hshort, walk_found hne hnames hnode hlink]
  rfl

/-- A path of names leads to what is there. -/
theorem lookUp_ofNames (hne : names ≠ []) (hnames : AllNames names)
    (hshort : (Path.ofNames names).bytes.length < maxPathLength) (hnode : disk.under? names = some node)
    (hlink : ∀ target, node ≠ .link target) : disk.lookUp (Path.ofNames names) = .ok node := by
  rw [under?] at hnode
  simp only [lookUp, find_ofNames hne hnames hshort hnode hlink, bind, Except.bind, hnode]

/-- A path that is too long leads nowhere, whatever is there. -/
theorem lookUp_of_long {path : Path} (h : ¬ path.bytes.length < maxPathLength) :
    ∃ cause, disk.lookUp path = .error cause := by
  obtain ⟨cause, hcause⟩ : ∃ cause, path.pieces = .error cause := by
    unfold Path.pieces
    split_ifs
    · exact ⟨_, rfl⟩
    · exact ⟨_, rfl⟩
    · exact ⟨_, rfl⟩
    · omega
  refine ⟨cause, ?_⟩
  rw [lookUp, find, reach, hcause]
  rfl

end Disk

end BatchVerify
