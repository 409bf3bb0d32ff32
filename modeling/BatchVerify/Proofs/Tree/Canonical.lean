import BatchVerify.Proofs.Disk.Plain

/-!
# Additions at plain paths

Additions are canonical when they are made at plain paths, each in a directory that was added before,
and no path is added as a directory and as a file (`Canonical`). A tree in memory then knows the
directories that were added and no others, as far as plain paths go, and its listings show what was
added right below them, in the spelling of the addition (`MemoryTree.Reachable.listGroups_contents`,
`MemoryTree.Reachable.listFiles_contents`).
-/

namespace BatchVerify

open BatchVerify.MemoryTree (parentOf parentOf_eq_of_parent?)

/-! ## The directories of plain paths -/

section

variable {path : Path}

theorem parentOf_ofNames {init : List Bytes} {last : Bytes} (h : AllNames (init ++ [last])) :
    parentOf (Path.ofNames (init ++ [last])) = Path.ofNames init :=
  parentOf_eq_of_parent? (Path.parent?_ofNames h)

/-- A plain path is no spelling of the empty one. -/
theorem Path.Plain.not_same_empty (h : path.Plain) : ¬ (Path.mk []).Same path := by
  obtain ⟨names, hne, hnames, rfl⟩ := h.exists_names
  intro hsame
  unfold Path.Same at hsame
  rw [Path.components_ofNames hne hnames] at hsame
  exact hne (List.map_eq_nil_iff.mp hsame.symm)

theorem Path.Plain.parent? (h : path.Plain) : path.parent? = some (parentOf path) := by
  obtain ⟨init, last, hnames, rfl⟩ := h.exists_last
  rw [Path.parent?_ofNames hnames, parentOf_ofNames hnames]

/-- A path in a plain directory has more than one name. -/
theorem Path.Plain.slash_mem (h : path.Plain) (hparent : (parentOf path).Plain) :
    Bytes.slash ∈ path.bytes := by
  obtain ⟨init, last, hnames, rfl⟩ := h.exists_last
  rw [parentOf_ofNames hnames] at hparent
  have hinit : init ≠ [] := by
    rintro rfl
    exact hparent.not_same_empty (Path.Same.refl _)
  exact Path.slash_mem_ofNames hinit last

/-- The directory of a plain path is plain, or the path is at the top. -/
theorem Path.Plain.parentOf (h : path.Plain) :
    MemoryTree.parentOf path = ⟨[]⟩ ∨ (MemoryTree.parentOf path).Plain := by
  obtain ⟨init, last, hnames, hpath⟩ := h.exists_last
  rw [hpath, parentOf_ofNames hnames]
  by_cases hinit : init = []
  · subst hinit
    exact Or.inl rfl
  · refine Or.inr ⟨?_, ?_⟩
    · rw [Path.split_ofNames hinit hnames.left]
      exact hnames.left
    · have hshort := h.short
      rw [hpath] at hshort
      exact lt_of_le_of_lt (Path.length_ofNames_le init last) hshort

end

/-! ## Canonical additions -/

/-- The path that something is added at. -/
def Addition.path : Addition → Path
  | .directory path => path
  | .file path => path

/-- What is there after an addition. -/
def Addition.node : Addition → Node
  | .directory _ => .directory
  | .file _ => .file {}

/-- Additions at plain paths that build a tree from the top down. -/
structure Canonical (additions : List Addition) : Prop where
  plain : ∀ {addition}, addition ∈ additions → addition.path.Plain
  /-- The directory of a path that has more than one name was added before. -/
  grounded : ∀ {before addition after}, additions = before ++ addition :: after →
    Bytes.slash ∈ addition.path.bytes → .directory (parentOf addition.path) ∈ before
  apart : ∀ {path}, .directory path ∈ additions → .file path ∉ additions

/-- Whether additions are canonical can be told from each of them and those before it. -/
theorem canonical_iff {additions : List Addition} : Canonical additions ↔
    (∀ addition ∈ additions, addition.path.Plain) ∧
    (∀ i : Fin additions.length, Bytes.slash ∈ additions[i].path.bytes →
      .directory (parentOf additions[i].path) ∈ additions.take i) ∧
    ∀ addition ∈ additions, .directory addition.path ∈ additions →
      .file addition.path ∉ additions := by
  constructor
  · intro h
    have hsplit (i : Fin additions.length) :
        additions = additions.take i ++ additions[i] :: additions.drop (i + 1) :=
      (List.take_append_drop i additions).symm.trans
        (congrArg _ (List.drop_eq_getElem_cons i.isLt))
    exact ⟨fun _ => h.plain, fun i => h.grounded (hsplit i), fun _ _ => h.apart⟩
  · rintro ⟨plain, grounded, apart⟩
    refine ⟨plain _, ?_, fun hdir => apart _ hdir hdir⟩
    rintro before addition after rfl hslash
    have hindex : before.length < (before ++ addition :: after).length := by simp
    simpa using grounded ⟨before.length, hindex⟩ (by simpa using hslash)

instance (additions : List Addition) : Decidable (Canonical additions) :=
  decidable_of_iff _ canonical_iff.symm

/-- What additions put at a path. -/
def contentAt? (additions : List Addition) (path : Path) : Option Node :=
  if .directory path ∈ additions then some .directory
  else if .file path ∈ additions then some (.file {})
  else none

section

variable {additions : List Addition} {addition : Addition} {path dir : Path} {node : Node}

theorem contentAt?_eq_directory_iff :
    contentAt? additions path = some .directory ↔ .directory path ∈ additions := by
  unfold contentAt?
  split_ifs <;> simp_all

theorem Canonical.contentAt?_eq_file_iff (h : Canonical additions) :
    contentAt? additions path = some (.file {}) ↔ .file path ∈ additions := by
  unfold contentAt?
  split_ifs with hdir hfile
  · simpa using h.apart hdir
  · simpa using hfile
  · simpa using hfile

theorem contentAt?_eq_some (h : contentAt? additions path = some node) :
    ∃ addition ∈ additions, addition.path = path ∧ addition.node = node := by
  unfold contentAt? at h
  split_ifs at h with hdir hfile <;> cases h
  · exact ⟨_, hdir, rfl, rfl⟩
  · exact ⟨_, hfile, rfl, rfl⟩

/-- Nothing puts a link anywhere. -/
theorem contentAt?_ne_link (target : Path) : contentAt? additions path ≠ some (.link target) := by
  intro h
  obtain ⟨addition, -, -, hnode⟩ := contentAt?_eq_some h
  cases addition <;> cases hnode

theorem Canonical.contentAt?_of_mem (h : Canonical additions) (hmem : addition ∈ additions) :
    contentAt? additions addition.path = some addition.node := by
  cases addition with
  | directory path => exact contentAt?_eq_directory_iff.mpr hmem
  | file path => exact h.contentAt?_eq_file_iff.mpr hmem

/-- What a later addition puts somewhere, and what was there before. -/
theorem Canonical.contentAt?_concat (h : Canonical (additions ++ [addition])) (path : Path) :
    contentAt? (additions ++ [addition]) path =
      if path = addition.path then some addition.node else contentAt? additions path := by
  split_ifs with hpath
  · subst hpath
    exact h.contentAt?_of_mem (List.mem_append_right _ List.mem_cons_self)
  · have hdir : addition ≠ .directory path := fun heq => hpath (heq ▸ rfl)
    have hfile : addition ≠ .file path := fun heq => hpath (heq ▸ rfl)
    simp [contentAt?, hdir.symm, hfile.symm]

theorem Canonical.contentAt?_plain (h : Canonical additions)
    (hnode : contentAt? additions path = some node) : path.Plain := by
  obtain ⟨addition, hmem, rfl, -⟩ := contentAt?_eq_some hnode
  exact h.plain hmem

/-! ## From the top down -/

theorem Canonical.init {more : List Addition} (h : Canonical (additions ++ more)) :
    Canonical additions where
  plain hmem := h.plain (List.mem_append_left _ hmem)
  grounded := by
    rintro before addition after rfl
    exact h.grounded (List.append_assoc _ _ _)
  apart hdir hfile := h.apart (List.mem_append_left _ hdir) (List.mem_append_left _ hfile)

/-- An addition is made at a new path, or repeats an earlier one. -/
theorem Canonical.new_or_known (h : Canonical (additions ++ [addition])) :
    contentAt? additions addition.path = none ∨
      contentAt? additions addition.path = some addition.node := by
  refine or_iff_not_imp_left.mpr fun hsome => ?_
  obtain ⟨node, hnode⟩ := Option.ne_none_iff_exists'.mp hsome
  obtain ⟨old, hold, hpath, -⟩ := contentAt?_eq_some hnode
  have hmem : old ∈ additions ++ [addition] := List.mem_append_left _ hold
  have hlast : addition ∈ additions ++ [addition] := List.mem_append_right _ List.mem_cons_self
  -- both are of one kind, since no path is of both
  have heq : old = addition := by
    cases old <;> cases addition <;> obtain rfl : _ = _ := hpath
    · rfl
    · exact absurd hlast (h.apart hmem)
    · exact absurd hmem (h.apart hlast)
    · rfl
  exact h.init.contentAt?_of_mem (heq ▸ hold)

/-- The last addition is at the top, or in a directory that was added before. -/
theorem Canonical.last (h : Canonical (additions ++ [addition])) :
    ∃ init last, AllNames (init ++ [last]) ∧ addition.path = Path.ofNames (init ++ [last]) ∧
      (init = [] ∨ .directory (Path.ofNames init) ∈ additions) := by
  have hplain := h.plain (List.mem_append_right _ List.mem_cons_self)
  obtain ⟨init, last, hnames, hpath⟩ := hplain.exists_last
  refine ⟨init, last, hnames, hpath, or_iff_not_imp_left.mpr fun hinit => ?_⟩
  have hslash : Bytes.slash ∈ addition.path.bytes := by
    rw [hpath]
    exact Path.slash_mem_ofNames hinit last
  have hparent := h.grounded rfl hslash
  rwa [hpath, parentOf_ofNames hnames] at hparent

end

/-! ## What is in a directory -/

/-- The paths in a directory at which additions put something, in the order of their names. -/
structure Path.Contents (dir : Path) (additions : List Addition) (node : Node)
    (paths : List Path) : Prop where
  entries : dir.Entries paths
  mem : ∀ {path}, path ∈ paths ↔
    parentOf path = dir ∧ contentAt? additions path = some node

/-- Entries that all have a name are all different. -/
theorem Path.Entries.nodup {dir : Path} {paths : List Path} (h : dir.Entries paths)
    (hnamed : ∀ path ∈ paths, ∃ name, path.name? = some name) : paths.Nodup := by
  refine h.ascending.imp_of_mem ?_
  rintro path _ hmem - hlt rfl
  obtain ⟨name, hname⟩ := hnamed path hmem
  exact List.lt_irrefl name (hlt hname hname)

/-- What is in a directory is one list. -/
theorem Canonical.contents_eq {additions : List Addition} {dir : Path} {node : Node}
    {paths paths' : List Path} (hcanonical : Canonical additions)
    (h : dir.Contents additions node paths) (h' : dir.Contents additions node paths') :
    paths = paths' := by
  have hnamed {paths : List Path} (h : dir.Contents additions node paths) (path : Path)
      (hmem : path ∈ paths) : ∃ name, path.name? = some name := by
    obtain ⟨init, last, hnames, rfl⟩ :=
      (hcanonical.contentAt?_plain (h.mem.mp hmem).2).exists_last
    exact ⟨last, Path.name?_ofNames hnames⟩
  -- two lists of the same paths, both in the order of names
  refine List.Perm.eq_of_pairwise ?_ h.entries.ascending h'.entries.ascending ?_
  · intro path path' hmem hmem' hlt hgt
    obtain ⟨name, hname⟩ := hnamed h path hmem
    obtain ⟨name', hname'⟩ := hnamed h' path' hmem'
    exact absurd (List.lt_trans (hlt hname hname') (hgt hname' hname)) (List.lt_irrefl name)
  · refine (List.perm_ext_iff_of_nodup (h.entries.nodup (hnamed h))
      (h'.entries.nodup (hnamed h'))).mpr fun path => ?_
    rw [h.mem, h'.mem]

/-! ## A tree in memory -/

namespace Directories

variable {dirs : Directories} {P : Path → Prop}

/-- The entries of all directories are so. -/
def All (P : Path → Prop) (dirs : Directories) : Prop :=
  ∀ dir entries, dirs.entries? dir = some entries → ∀ path ∈ entries, P path

theorem All.alter (h : dirs.All P) (hdirs : dirs.Ordered) (dir : Path)
    {change : List Path → List Path}
    (hchange : ∀ entries, (∀ path ∈ entries, P path) → ∀ path ∈ change entries, P path) :
    All P (dirs.alter dir change) := by
  intro d entries hentries
  rw [entries?_alter hdirs.keys] at hentries
  split_ifs at hentries
  · cases hentries
    apply hchange
    cases hold : dirs.entries? dir with
    | none => exact fun path hmem => absurd hmem List.not_mem_nil
    | some old => exact h _ _ hold
  · exact h _ _ hentries

theorem All.openDir (h : dirs.All P) (hdirs : dirs.Ordered) (dir : Path) :
    All P (dirs.alter dir id) :=
  h.alter hdirs dir fun _ hentries => hentries

theorem All.enter (h : dirs.All P) (hdirs : dirs.Ordered) (dir : Path) {path : Path} (hpath : P path) :
    All P (dirs.alter dir (insertPath path)) := by
  refine h.alter hdirs dir fun entries hentries p hmem => ?_
  rcases mem_insertPath hmem with rfl | hmem
  · exact hpath
  · exact hentries p hmem

end Directories

namespace MemoryTree

variable {additions : List Addition} {tree : MemoryTree} {path dir parent : Path}

theorem all_addDir {P : Path → Prop} (h : tree.dirs.All P) (hdirs : tree.dirs.Ordered)
    (hpath : path.parent?.isSome → P path) : (tree.addDir path).dirs.All P := by
  unfold addDir
  split
  · next parent hparent =>
    split_ifs
    · exact (h.enter hdirs parent (hpath (by simp [hparent]))).openDir (hdirs.enter parent path) path
    · exact h.openDir hdirs path
  · exact h.openDir hdirs path

/-- A directory that is added in a known one is an entry of it. -/
theorem lists_addDir_self (h : tree.dirs.Ordered) (hparent : path.parent? = some parent)
    (hknown : tree.dirs.contains parent = true) : (tree.addDir path).dirs.Lists parent path := by
  unfold addDir
  rw [hparent]
  dsimp only
  rw [if_pos hknown, Directories.lists_openDir (h.enter parent path), Directories.lists_enter h]
  exact Or.inl ⟨Path.Same.refl parent, Path.Same.refl path⟩

/-- What canonical additions make of a tree. -/
structure Follows (additions : List Addition) (tree : MemoryTree) : Prop where
  wellFormed : tree.WellFormed
  contains : ∀ {path : Path}, path.Plain →
    (tree.dirs.contains path = true ↔ .directory path ∈ additions)
  /-- A directory that lies in another one is an entry of it. -/
  listed : ∀ {path : Path}, .directory path ∈ additions → Bytes.slash ∈ path.bytes →
    tree.dirs.Lists (parentOf path) path
  plain : tree.dirs.All Path.Plain

theorem Follows.addDir (h : Follows additions tree)
    (hcanonical : Canonical (additions ++ [.directory path])) :
    Follows (additions ++ [.directory path]) (tree.addDir path) where
  wellFormed := h.wellFormed.addDir path
  contains := by
    intro p hp
    have hpath : path.Plain := hcanonical.plain (List.mem_append_right _ List.mem_cons_self)
    rw [contains_addDir h.wellFormed.ordered, h.contains hp, List.mem_append, List.mem_singleton,
      Addition.directory.injEq, or_comm]
    refine or_congr_right ⟨fun hsame => hp.eq_of_same hpath hsame.symm, ?_⟩
    rintro rfl
    exact Path.Same.refl p
  listed := by
    intro p hmem hslash
    rcases List.mem_append.mp hmem with hold | hnew
    · exact lists_addDir_of_lists h.wellFormed.ordered path (h.listed hold hslash)
    · obtain rfl : p = path := Addition.directory.inj (List.mem_singleton.mp hnew)
      have hgrounded : .directory (parentOf p) ∈ additions := hcanonical.grounded rfl hslash
      have hknown := (h.contains (hcanonical.init.plain hgrounded)).mpr hgrounded
      exact lists_addDir_self h.wellFormed.ordered (hcanonical.plain hmem).parent? hknown
  plain := all_addDir h.plain h.wellFormed.ordered fun _ =>
    hcanonical.plain (List.mem_append_right _ List.mem_cons_self)

/-- The directory of a file that is added is known before, unless it is the empty path. -/
theorem Follows.withParent (h : Follows additions tree)
    (hcanonical : Canonical (additions ++ [.file path])) :
    Follows additions (tree.withParent path) := by
  obtain ⟨init, last, hnames, hpath, hparent⟩ := hcanonical.last
  have hparentOf : parentOf path = Path.ofNames init := by
    rw [show path = Path.ofNames (init ++ [last]) from hpath, parentOf_ofNames hnames]
  unfold MemoryTree.withParent
  rw [hparentOf]
  split_ifs with hknown
  · exact h
  · rcases hparent with rfl | hparent
    · have hordered := h.wellFormed.ordered
      refine
        { wellFormed := h.wellFormed.addDir _
          contains := fun {p} hp => ?contains
          listed := fun hmem hslash => lists_addDir_of_lists hordered _ (h.listed hmem hslash)
          plain := all_addDir h.plain hordered fun hsome => absurd hsome (by decide) }
      case contains =>
        rw [contains_addDir hordered, h.contains hp]
        exact or_iff_right hp.not_same_empty
    · exact absurd ((h.contains (hcanonical.init.plain hparent)).mpr hparent) hknown

theorem Follows.addFile (h : Follows additions tree)
    (hcanonical : Canonical (additions ++ [.file path])) :
    Follows (additions ++ [.file path]) (tree.addFile path) := by
  have hwith := h.withParent hcanonical
  have hordered := hwith.wellFormed.ordered
  have hknown : (tree.withParent path).dirs.contains (parentOf path) = true := by
    unfold MemoryTree.withParent
    split_ifs with hknown
    · exact hknown
    · exact (contains_addDir h.wellFormed.ordered).mpr (Or.inl (Path.Same.refl _))
  refine
    { wellFormed := h.wellFormed.addFile path
      contains := fun {p} hp => ?contains
      listed := fun {p} hmem hslash => ?listed
      plain := hwith.plain.enter hordered _
        (hcanonical.plain (List.mem_append_right _ List.mem_cons_self)) }
  case contains =>
    have hsame (hp : (parentOf path).Same p) : (tree.withParent path).dirs.contains p = true :=
      Directories.contains_congr hp _ ▸ hknown
    rw [addFile_eq, Directories.contains_alter_iff hordered, or_iff_right_of_imp hsame,
      hwith.contains hp]
    simp
  case listed =>
    have hmem : .directory p ∈ additions := by simpa using hmem
    rw [addFile_eq, Directories.lists_enter hordered]
    exact Or.inr (hwith.listed hmem hslash)

theorem Follows.congr {tree' : MemoryTree} (h : Follows additions tree)
    (hdirs : tree'.dirs = tree.dirs) (hfiles : tree'.files = tree.files) : Follows additions tree' := by
  obtain ⟨wellFormed, contains, listed, plain⟩ := h
  refine ⟨wellFormed.congr hdirs hfiles, ?_, ?_, ?_⟩ <;> rw [hdirs]
  · exact contains
  · exact listed
  · exact plain

/-- Every tree that there can be after canonical additions follows them. -/
theorem Reachable.follows (h : Reachable additions tree) (hcanonical : Canonical additions) :
    Follows additions tree := by
  induction h with
  | empty =>
    refine
      { wellFormed := WellFormed.empty
        contains := fun _ => by simp [Directories.contains, Directories.entries?]
        listed := fun hmem => absurd hmem List.not_mem_nil
        plain := fun dir entries hentries => by cases hentries }
  | add _ addition ih =>
    have h := ih hcanonical.init
    cases addition with
    | directory path => exact h.addDir hcanonical
    | file path => exact h.addFile hcanonical
  | ensureDir _ dir ih =>
    have hsame := sameContent_ensureDir dir ‹MemoryTree›
    exact (ih hcanonical).congr hsame.1 hsame.2.1
  | setReadOnly _ on ih => exact (ih hcanonical).congr rfl rfl

section

variable (h : Reachable additions tree) (hcanonical : Canonical additions)

include h hcanonical

theorem Reachable.containsPath_files_iff (hpath : path.Plain) :
    containsPath tree.files path = true ↔ .file path ∈ additions := by
  rw [h.containsPath_files]
  constructor
  · rintro ⟨file, hmem, hsame⟩
    rwa [← (hcanonical.plain hmem).eq_of_same hpath hsame]
  · exact fun hmem => ⟨path, hmem, Path.Same.refl path⟩

/-- The entries of a directory are what was added in it, as it was spelled. -/
theorem Reachable.mem_entries_iff {entries : List Path} (hdir : dir.Plain)
    (hentries : tree.dirs.entries? dir = some entries) :
    path ∈ entries ↔
      parentOf path = dir ∧ (.directory path ∈ additions ∨ .file path ∈ additions) := by
  have hfollows := h.follows hcanonical
  constructor
  · intro hmem
    have hpath : path.Plain := hfollows.plain _ _ hentries path hmem
    have hlists := Directories.lists_of_mem hentries hmem
    refine ⟨?_, ?_⟩
    · have hplaced := hfollows.wellFormed.placed hlists
      rcases hpath.parentOf with hempty | hparent
      · exact absurd (hempty ▸ hplaced) hdir.not_same_empty
      · exact hparent.eq_of_same hdir hplaced
    · rw [← hfollows.contains hpath, ← h.containsPath_files_iff hcanonical hpath]
      exact hfollows.wellFormed.known hlists
  · rintro ⟨rfl, hadded⟩
    have hpath : path.Plain := hadded.elim hcanonical.plain hcanonical.plain
    have hlists : tree.dirs.Lists (parentOf path) path := by
      rcases hadded with hadded | hadded
      · exact hfollows.listed hadded (hpath.slash_mem hdir)
      · exact hfollows.wellFormed.listed
          ((h.containsPath_files_iff hcanonical hpath).mpr hadded)
    -- the spelling that is listed is plain as well
    obtain ⟨entries', hentries', hcontains⟩ := hlists
    obtain rfl := Option.some.inj (hentries.symm.trans hentries')
    obtain ⟨entry, hmem, hsame⟩ := containsPath_iff.mp hcontains
    rwa [← (hfollows.plain _ _ hentries entry hmem).eq_of_same hpath hsame]

/-- A listing of an added directory passes nothing over. -/
theorem Reachable.list_contents {keep : Path → Bool} {node : Node} (hdir : .directory dir ∈ additions)
    (hkeep : ∀ path : Path, path.Plain →
      (keep path = true ↔ contentAt? additions path = some node)) :
    ∃ kept, tree.list keep dir = .ok ⟨kept, []⟩ ∧ dir.Contents additions node kept := by
  have hplain : dir.Plain := hcanonical.plain hdir
  have hfollows := h.follows hcanonical
  obtain ⟨entries, hentries⟩ := Option.isSome_iff_exists.mp ((hfollows.contains hplain).mpr hdir)
  have hlist : tree.list keep dir = .ok ⟨entries.filter keep, []⟩ := by
    simp only [list, hentries]
  refine ⟨entries.filter keep, hlist, hfollows.wellFormed.entries_of_list hlist, fun {path} => ?_⟩
  rw [List.mem_filter, h.mem_entries_iff hcanonical hplain hentries]
  constructor
  · rintro ⟨⟨hparent, hadded⟩, hkept⟩
    exact ⟨hparent, (hkeep path (hadded.elim hcanonical.plain hcanonical.plain)).mp hkept⟩
  · rintro ⟨hparent, hnode⟩
    refine ⟨⟨hparent, ?_⟩, (hkeep path (hcanonical.contentAt?_plain hnode)).mpr hnode⟩
    unfold contentAt? at hnode
    split_ifs at hnode with hadded hadded
    · exact Or.inl hadded
    · exact Or.inr hadded

theorem Reachable.listGroups_contents (hdir : .directory dir ∈ additions) :
    ∃ kept, tree.listGroups dir = .ok ⟨kept, []⟩ ∧ dir.Contents additions .directory kept :=
  h.list_contents hcanonical hdir fun path hpath => by
    rw [(h.follows hcanonical).contains hpath, contentAt?_eq_directory_iff]

theorem Reachable.listFiles_contents (hdir : .directory dir ∈ additions) :
    ∃ kept, tree.listFiles dir = .ok ⟨kept, []⟩ ∧ dir.Contents additions (.file {}) kept :=
  h.list_contents hcanonical hdir fun path hpath => by
    rw [h.containsPath_files_iff hcanonical hpath, hcanonical.contentAt?_eq_file_iff]

/-- What the check of a root answers for what was added. -/
theorem Reachable.checkRoot_eq {node : Node} (hnode : contentAt? additions path = some node) :
    tree.checkRoot path =
      if node = .directory then .ok () else .error (.rootNotDirectory path) := by
  have hplain := hcanonical.contentAt?_plain hnode
  have hcontains := (h.follows hcanonical).contains hplain
  have hfile := h.containsPath_files_iff hcanonical hplain
  unfold contentAt? at hnode
  unfold checkRoot
  split_ifs at hnode with hadded hadded <;> cases hnode
  · rw [if_pos (hcontains.mpr hadded), if_pos rfl]
  · rw [if_neg fun hknown => hcanonical.apart (hcontains.mp hknown) hadded,
      if_pos (hfile.mpr hadded), if_neg nofun]

end

end MemoryTree

end BatchVerify
