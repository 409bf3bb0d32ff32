import BatchVerify.Proofs.Path.Order

/-!
# What additions keep of a tree in memory

Whatever is added in whatever order, every file is listed in its directory, every entry of a
directory lies there and is a known directory or file, and no set holds two spellings of a path
(`MemoryTree.Reachable.wellFormed`). Paths are compared as paths throughout: `Directories.Lists`
tells which paths a directory lists in any spelling.
-/

namespace BatchVerify

open BatchVerify.Path (Ascending)

namespace MemoryTree

/-- The directory of a path has all of its components but the last; the empty path stands for a
directory that is missing. -/
theorem components_parentOf (path : Path) :
    (parentOf path).components = path.components.dropLast := by
  unfold parentOf
  cases h : path.parent? with
  | none =>
    rcases Path.components_of_parent?_eq_none h with hnil | hroot
    · rw [hnil]; rfl
    · rw [hroot]; rfl
  | some parent => exact Path.components_of_parent? h

theorem parentOf_same {p q : Path} (h : p.Same q) : (parentOf p).Same (parentOf q) := by
  unfold Path.Same
  rw [components_parentOf, components_parentOf, show p.components = q.components from h]

theorem parentOf_eq_of_parent? {path parent : Path} (h : path.parent? = some parent) :
    parentOf path = parent := by
  rw [parentOf, h]
  rfl

end MemoryTree

open MemoryTree (parentOf)

namespace Directories

/-- A directory lists a path, in some spelling of each. -/
def Lists (dirs : Directories) (dir path : Path) : Prop :=
  ∃ entries, dirs.entries? dir = some entries ∧ containsPath entries path = true

/-- The keys, and the entries under each key, are sets in the order of paths. -/
structure Ordered (dirs : Directories) : Prop where
  keys : Ascending (dirs.map Prod.fst)
  entries : ∀ {dir entries}, dirs.entries? dir = some entries → Ascending entries

variable {dirs : Directories} {dir dir' path path' : Path}

theorem Lists.congr (h : dirs.Lists dir path) (hdir : dir.Same dir') (hpath : path.Same path') :
    dirs.Lists dir' path' := by
  obtain ⟨entries, hentries, hcontains⟩ := h
  rw [entries?_congr hdir] at hentries
  obtain ⟨p, hmem, hsame⟩ := containsPath_iff.mp hcontains
  exact ⟨entries, hentries, containsPath_iff.mpr ⟨p, hmem, hsame.trans hpath⟩⟩

theorem lists_of_mem {entries : List Path} (h : dirs.entries? dir = some entries)
    (hmem : path ∈ entries) : dirs.Lists dir path :=
  ⟨entries, h, containsPath_iff.mpr ⟨path, hmem, Path.Same.refl path⟩⟩

/-! ## Making a directory known, and entering a path into it -/

theorem Ordered.alter (h : dirs.Ordered) (dir : Path) {change : List Path → List Path}
    (hchange : ∀ entries, Ascending entries → Ascending (change entries)) :
    (dirs.alter dir change).Ordered where
  keys := ascending_alter h.keys dir change
  entries := by
    intro d entries hentries
    rw [entries?_alter h.keys] at hentries
    split_ifs at hentries
    · cases hentries
      apply hchange
      cases hold : dirs.entries? dir with
      | none => exact List.Pairwise.nil
      | some old => exact h.entries hold
    · exact h.entries hentries

theorem Ordered.openDir (h : dirs.Ordered) (dir : Path) : (dirs.alter dir id).Ordered :=
  h.alter dir fun _ hentries => hentries

theorem Ordered.enter (h : dirs.Ordered) (dir path : Path) :
    (dirs.alter dir (insertPath path)).Ordered :=
  h.alter dir fun _ hentries => ascending_insertPath path hentries

/-- A directory that becomes known lists nothing by that. -/
theorem lists_openDir (h : dirs.Ordered) {d p : Path} :
    Lists (dirs.alter dir id) d p ↔ dirs.Lists d p := by
  unfold Lists
  rw [entries?_alter h.keys]
  split_ifs with hsame
  · rw [entries?_congr hsame]
    cases dirs.entries? d with
    | none => simp [containsPath]
    | some entries => simp
  · rfl

theorem lists_enter (h : dirs.Ordered) {d p : Path} :
    Lists (dirs.alter dir (insertPath path)) d p ↔
      (dir.Same d ∧ path.Same p) ∨ dirs.Lists d p := by
  unfold Lists
  rw [entries?_alter h.keys]
  split_ifs with hsame
  · rw [entries?_congr hsame]
    cases dirs.entries? d with
    | none => simp [insertPath, hsame, containsPath]
    | some entries => simp [containsPath_insertPath, hsame]
  · simp [hsame]

theorem contains_alter_iff (h : dirs.Ordered) {change : List Path → List Path} {d : Path} :
    contains (dirs.alter dir change) d = true ↔ dir.Same d ∨ dirs.contains d = true := by
  rw [contains_alter h.keys]
  simp

end Directories

namespace MemoryTree

/-- What additions keep of a tree. -/
structure WellFormed (tree : MemoryTree) : Prop where
  ordered : tree.dirs.Ordered
  files : Ascending tree.files
  /-- Every file is an entry of its directory. -/
  listed : ∀ {file}, containsPath tree.files file = true → tree.dirs.Lists (parentOf file) file
  /-- Every entry of a directory lies in it. -/
  placed : ∀ {dir entry}, tree.dirs.Lists dir entry → (parentOf entry).Same dir
  /-- Every entry of a directory is a directory or a file. -/
  known : ∀ {dir entry}, tree.dirs.Lists dir entry →
    tree.dirs.contains entry = true ∨ containsPath tree.files entry = true

variable {tree : MemoryTree}

/-! ## Adding a directory -/

theorem ordered_addDir (h : tree.dirs.Ordered) (path : Path) :
    (tree.addDir path).dirs.Ordered := by
  unfold addDir
  split
  · split_ifs
    · exact (h.enter _ path).openDir path
    · exact h.openDir path
  · exact h.openDir path

theorem contains_addDir (h : tree.dirs.Ordered) {path dir : Path} :
    (tree.addDir path).dirs.contains dir = true ↔
      path.Same dir ∨ tree.dirs.contains dir = true := by
  unfold addDir
  split
  · next parent _ =>
    split_ifs with hknown
    · rw [Directories.contains_alter_iff (h.enter parent path), Directories.contains_alter_iff h]
      constructor
      · rintro (hsame | hsame | hdir)
        · exact Or.inl hsame
        · exact Or.inr (Directories.contains_congr hsame tree.dirs ▸ hknown)
        · exact Or.inr hdir
      · exact Or.imp_right Or.inr
    · exact Directories.contains_alter_iff h
  · exact Directories.contains_alter_iff h

/-- A new directory is an entry of the directory it lies in, and nothing else is listed anew. -/
theorem lists_addDir (h : tree.dirs.Ordered) {path dir entry : Path} :
    (tree.addDir path).dirs.Lists dir entry →
      ((parentOf path).Same dir ∧ path.Same entry) ∨ tree.dirs.Lists dir entry := by
  unfold addDir
  intro hlists
  split at hlists
  · next parent hparent =>
    split_ifs at hlists
    · rw [Directories.lists_openDir (h.enter parent path), Directories.lists_enter h] at hlists
      rwa [parentOf_eq_of_parent? hparent]
    · exact Or.inr ((Directories.lists_openDir h).mp hlists)
  · exact Or.inr ((Directories.lists_openDir h).mp hlists)

theorem lists_addDir_of_lists (h : tree.dirs.Ordered) (path : Path) {dir entry : Path}
    (hlists : tree.dirs.Lists dir entry) : (tree.addDir path).dirs.Lists dir entry := by
  unfold addDir
  split
  · next parent _ =>
    split_ifs
    · rw [Directories.lists_openDir (h.enter parent path), Directories.lists_enter h]
      exact Or.inr hlists
    · exact (Directories.lists_openDir h).mpr hlists
  · exact (Directories.lists_openDir h).mpr hlists

theorem WellFormed.addDir (h : tree.WellFormed) (path : Path) :
    (tree.addDir path).WellFormed where
  ordered := ordered_addDir h.ordered path
  files := h.files
  listed hfile := lists_addDir_of_lists h.ordered path (h.listed hfile)
  placed := by
    intro dir entry hlists
    -- an entry is the new directory in the one above it, or was there before
    rcases lists_addDir h.ordered hlists with ⟨hdir, hentry⟩ | hold
    · exact (parentOf_same hentry).symm.trans hdir
    · exact h.placed hold
  known := by
    intro dir entry hlists
    rw [contains_addDir h.ordered]
    rcases lists_addDir h.ordered hlists with ⟨_, hentry⟩ | hold
    · exact Or.inl (Or.inl hentry)
    · exact (h.known hold).imp_left Or.inr

/-! ## Adding a file -/

/-- The tree in which the directory of a new file is known. -/
def withParent (tree : MemoryTree) (path : Path) : MemoryTree :=
  if tree.dirs.contains (parentOf path) then tree else tree.addDir (parentOf path)

theorem addFile_eq (tree : MemoryTree) (path : Path) :
    tree.addFile path =
      { tree.withParent path with
        dirs := (tree.withParent path).dirs.alter (parentOf path) (insertPath path)
        files := insertPath path (tree.withParent path).files } := rfl

theorem WellFormed.withParent (h : tree.WellFormed) (path : Path) :
    (tree.withParent path).WellFormed := by
  unfold MemoryTree.withParent
  split_ifs
  · exact h
  · exact h.addDir _

@[simp] theorem files_withParent (tree : MemoryTree) (path : Path) :
    (tree.withParent path).files = tree.files := by
  unfold withParent
  split_ifs <;> rfl

theorem WellFormed.addFile (h : tree.WellFormed) (path : Path) :
    (tree.addFile path).WellFormed := by
  have hparent := h.withParent path
  rw [addFile_eq]
  refine
    { ordered := hparent.ordered.enter _ _
      files := ascending_insertPath path hparent.files
      listed := ?listed
      placed := ?placed
      known := ?known }
  case listed =>
    intro file hfile
    -- every file but the new one was listed before, and stays so
    rw [Directories.lists_enter hparent.ordered]
    rcases containsPath_insertPath.mp hfile with hsame | hold
    · exact Or.inl ⟨parentOf_same hsame, hsame⟩
    · exact Or.inr (hparent.listed hold)
  case placed =>
    intro dir entry hlists
    rcases (Directories.lists_enter hparent.ordered).mp hlists with ⟨hdir, hentry⟩ | hold
    · exact (parentOf_same hentry).symm.trans hdir
    · exact hparent.placed hold
  case known =>
    intro dir entry hlists
    rw [Directories.contains_alter_iff hparent.ordered, containsPath_insertPath]
    rcases (Directories.lists_enter hparent.ordered).mp hlists with ⟨_, hentry⟩ | hold
    · exact Or.inr (Or.inl hentry)
    · exact (hparent.known hold).imp Or.inr Or.inr

/-! ## Any additions -/

theorem WellFormed.empty : ({} : MemoryTree).WellFormed := by
  have hlists (dir path : Path) : ¬ Directories.Lists [] dir path := by
    rintro ⟨entries, hentries, _⟩
    cases hentries
  exact
    { ordered := ⟨List.Pairwise.nil, fun hentries => by cases hentries⟩
      files := List.Pairwise.nil
      listed := fun hfile => by cases hfile
      placed := fun h => absurd h (hlists _ _)
      known := fun h => absurd h (hlists _ _) }

theorem WellFormed.add (h : tree.WellFormed) (addition : Addition) :
    (tree.add addition).WellFormed := by
  cases addition with
  | directory path => exact h.addDir path
  | file path => exact h.addFile path

/-- The files of a tree after an addition. -/
theorem containsPath_files_add (tree : MemoryTree) (addition : Addition) (path : Path) :
    containsPath (tree.add addition).files path = true ↔
      (∃ file, addition = .file file ∧ file.Same path) ∨
        containsPath tree.files path = true := by
  cases addition with
  | directory dir => simp [add, addDir]
  | file file => simp [add, addFile_eq, containsPath_insertPath]

/-- The trees that there can be after given additions: runs in between note directories, and the
mark that refuses them can be set and cleared at any time. -/
inductive Reachable : List Addition → MemoryTree → Prop
  | empty : Reachable [] {}
  | add {additions tree} (h : Reachable additions tree) (addition : Addition) :
    Reachable (additions ++ [addition]) (tree.add addition)
  | ensureDir {additions tree} (h : Reachable additions tree) (dir : Path) :
    Reachable additions (tree.ensureDir dir).2
  | setReadOnly {additions tree} (h : Reachable additions tree) (on : Bool) :
    Reachable additions { tree with readOnly := on }

theorem reachable_ofAdditions (additions : List Addition) :
    Reachable additions (ofAdditions additions) := by
  unfold ofAdditions
  induction additions using List.reverseRecOn with
  | nil => exact .empty
  | append_singleton additions addition ih =>
    rw [List.foldl_append]
    exact ih.add addition

/-- Two trees hold the same, whatever directories were asked for. -/
def SameContent (tree tree' : MemoryTree) : Prop :=
  tree.dirs = tree'.dirs ∧ tree.files = tree'.files ∧ tree.readOnly = tree'.readOnly

theorem sameContent_ensureDir (dir : Path) (tree : MemoryTree) :
    (tree.ensureDir dir).2.SameContent tree := by
  unfold ensureDir
  split_ifs <;> exact ⟨rfl, rfl, rfl⟩

theorem WellFormed.congr {tree' : MemoryTree} (h : tree.WellFormed) (hdirs : tree'.dirs = tree.dirs)
    (hfiles : tree'.files = tree.files) : tree'.WellFormed := by
  obtain ⟨ordered, files, listed, placed, known⟩ := h
  rw [← hdirs, ← hfiles] at *
  exact ⟨ordered, files, listed, placed, known⟩

/-- Every tree that there can be is well-formed. -/
theorem Reachable.wellFormed {additions : List Addition} (h : Reachable additions tree) :
    tree.WellFormed := by
  -- by the way the tree came about: only additions touch directories and files
  induction h with
  | empty => exact WellFormed.empty
  | add _ addition ih => exact ih.add addition
  | ensureDir _ dir ih =>
    have hsame := sameContent_ensureDir dir ‹MemoryTree›
    exact ih.congr hsame.1 hsame.2.1
  | setReadOnly _ on ih => exact ih.congr rfl rfl

/-- The files of a tree are those that were added. -/
theorem Reachable.containsPath_files {additions : List Addition} (h : Reachable additions tree)
    (path : Path) :
    containsPath tree.files path = true ↔ ∃ file, .file file ∈ additions ∧ file.Same path := by
  induction h with
  | empty => simp [containsPath]
  | @add additions tree _ addition ih =>
    rw [containsPath_files_add, ih]
    simp only [List.mem_append, List.mem_singleton]
    constructor
    · rintro (⟨file, rfl, hsame⟩ | ⟨file, hmem, hsame⟩)
      · exact ⟨file, Or.inr rfl, hsame⟩
      · exact ⟨file, Or.inl hmem, hsame⟩
    · rintro ⟨file, hmem | hmem, hsame⟩
      · exact Or.inr ⟨file, hmem, hsame⟩
      · exact Or.inl ⟨file, hmem.symm, hsame⟩
  | @ensureDir additions tree _ dir ih =>
    rw [(sameContent_ensureDir dir tree).2.1]
    exact ih
  | setReadOnly _ on ih => exact ih

/-! ## Entries -/

theorem WellFormed.ascending_entries (h : tree.WellFormed) (dir : Path) :
    Ascending ((tree.dirs.entries? dir).getD []) := by
  cases hentries : tree.dirs.entries? dir with
  | none => exact List.Pairwise.nil
  | some entries => exact h.ordered.entries hentries

/-- An entry of a directory lies in it. -/
theorem WellFormed.parentOf_same_of_mem (h : tree.WellFormed) {dir path : Path}
    (hmem : path ∈ (tree.dirs.entries? dir).getD []) : (parentOf path).Same dir := by
  cases hentries : tree.dirs.entries? dir with
  | none =>
    rw [hentries] at hmem
    cases hmem
  | some entries =>
    rw [hentries] at hmem
    exact h.placed (Directories.lists_of_mem hentries hmem)

end MemoryTree

end BatchVerify
