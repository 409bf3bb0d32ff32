import BatchVerify.Proofs.Tree.Spellings

/-!
# What a tree in memory is after any additions

Additions may name the same paths in any spelling and any order, and may name paths that end in no name
or have no parent. Whatever they do, a tree stays coherent: `MemoryTree.Coherent` tells which
directories it knows, what their entries are, in which spelling, and how both listings of a directory
are arranged (`MemoryTree.coherent_ofAdditions`).
-/

namespace BatchVerify

open BatchVerify.Path (Ascending)

/-! ## Where entries lie, and how they are arranged -/

namespace Path

/-- A path lies in a directory if that is its parent; what has no parent lies in the empty path. -/
def LiesIn (path dir : Path) : Prop :=
  (∃ parent, path.parent? = some parent ∧ parent.Same dir) ∨
    (path.parent? = none ∧ dir.Same ⟨[]⟩)

theorem liesIn_iff {path dir : Path} :
    path.LiesIn dir ↔ (MemoryTree.parentOf path).Same dir := by
  unfold LiesIn MemoryTree.parentOf
  cases path.parent? with
  | none => simpa using ⟨Same.symm, Same.symm⟩
  | some parent => simp

/-- A path comes before another by name: it has none, or the lesser one byte by byte. -/
def Precedes (p q : Path) : Prop :=
  p.name? = none ∨ ∃ a b, p.name? = some a ∧ q.name? = some b ∧ a < b

/-- Among paths in one directory, those without a name come first. -/
theorem name?_isSome_of_order {dir p q : Path} {a : Bytes}
    (hp : p.components = dir.components ++ [.name a]) (hq : q.components.dropLast = dir.components)
    (hlt : p.order q = .lt) : q.name?.isSome := by
  unfold order at hlt
  rw [hp] at hlt
  rcases List.eq_nil_or_concat q.components with hnil | ⟨init, last, hlast⟩
  · rw [hnil] at hq hlt
    rw [← hq] at hlt
    cases hlt
  · rw [List.concat_eq_append] at hlast
    rw [hlast, List.dropLast_concat] at hq
    rw [hlast, hq, List.map_append, List.map_append, compare_append] at hlt
    unfold name?
    rw [hlast, List.getLast?_concat]
    cases last with
    | name bytes => rfl
    | root => cases hlt
    | current => cases hlt
    | parent => cases hlt

/-- Paths in one directory come by name when they come in the order of paths. -/
theorem precedes_of_order {dir p q : Path} (hp : p.LiesIn dir) (hq : q.LiesIn dir)
    (hlt : p.order q = .lt) : p.Precedes q := by
  rw [liesIn_iff, Same, MemoryTree.components_parentOf] at hp hq
  cases ha : p.name? with
  | none => exact Or.inl ha
  | some a =>
    have hpath : p.components = dir.components ++ [.name a] := by
      rw [components_of_name? ha, hp]
    obtain ⟨b, hb⟩ := Option.isSome_iff_exists.mp (name?_isSome_of_order hpath hq hlt)
    have hpath' : q.components = dir.components ++ [.name b] := by
      rw [components_of_name? hb, hq]
    exact Or.inr ⟨a, b, ha, hb, (order_eq_lt_iff_of_names hpath hpath').mp hlt⟩

/-- Paths in a directory without two spellings of one, arranged by name. -/
structure Arranged (dir : Path) (paths : List Path) : Prop where
  single : paths.Pairwise fun p q => ¬ p.Same q
  ordered : paths.Pairwise Precedes
  placed : ∀ path ∈ paths, path.LiesIn dir

theorem Ascending.arranged {dir : Path} {paths : List Path} (h : Ascending paths)
    (hplaced : ∀ path ∈ paths, path.LiesIn dir) : Arranged dir paths where
  single := h.pairwise_not_same
  ordered := h.imp_of_mem fun hp hq hlt => precedes_of_order (hplaced _ hp) (hplaced _ hq) hlt
  placed := hplaced

end Path

namespace MemoryTree

variable {tree : MemoryTree} {additions : List Addition} {dir : Path}

/-! ## Directories that are known -/

/-- The directory that an addition makes known. -/
def dirOf : Addition → Path
  | .directory path => path
  | .file path => parentOf path

theorem contains_withParent (h : tree.dirs.Ordered) {path dir : Path} :
    (tree.withParent path).dirs.contains dir = true ↔
      (parentOf path).Same dir ∨ tree.dirs.contains dir = true := by
  unfold withParent
  split_ifs with hknown
  · refine (or_iff_right_of_imp fun hsame => ?_).symm
    rwa [← Directories.contains_congr hsame]
  · exact contains_addDir h

theorem contains_add (h : tree.WellFormed) (addition : Addition) {dir : Path} :
    (tree.add addition).dirs.contains dir = true ↔
      (dirOf addition).Same dir ∨ tree.dirs.contains dir = true := by
  cases addition with
  | directory path => exact contains_addDir h.ordered
  | file path =>
    show (tree.addFile path).dirs.contains dir = true ↔ _
    rw [addFile_eq, Directories.contains_alter_iff (h.withParent path).ordered,
      contains_withParent h.ordered, ← or_assoc, or_self]
    rfl

theorem wellFormed_ofAdditions (additions : List Addition) : (ofAdditions additions).WellFormed :=
  (reachable_ofAdditions additions).wellFormed

theorem ofAdditions_append (additions more : List Addition) :
    ofAdditions (additions ++ more) = more.foldl add (ofAdditions additions) :=
  List.foldl_append

/-- The directories of a tree are those that additions made known. -/
theorem contains_ofAdditions {additions : List Addition} {dir : Path} :
    (ofAdditions additions).dirs.contains dir = true ↔
      ∃ addition ∈ additions, (dirOf addition).Same dir := by
  induction additions using List.reverseRecOn with
  | nil => simp [ofAdditions, Directories.contains, Directories.entries?]
  | append_singleton additions addition ih =>
    rw [ofAdditions_append, List.foldl_cons, List.foldl_nil,
      contains_add (wellFormed_ofAdditions additions), ih]
    simp only [List.mem_append, List.mem_singleton, or_and_right, exists_or, exists_eq_left]
    exact or_comm

theorem add_foldl_known (more : List Addition) (h : (ofAdditions additions).dirs.contains dir = true) :
    (more.foldl add (ofAdditions additions)).dirs.contains dir = true := by
  rw [← ofAdditions_append]
  obtain ⟨addition, hmem, hsame⟩ := contains_ofAdditions.mp h
  exact contains_ofAdditions.mpr ⟨addition, List.mem_append_left _ hmem, hsame⟩

/-! ## Coherence -/

/-- The answer to a listing of a directory: all of its entries that `keep` accepts, arranged. -/
def Shows (tree : MemoryTree) (dir : Path) (keep : Path → Bool) (answer : Except Failure Listing) :
    Prop :=
  ∃ paths, answer = .ok ⟨paths, []⟩ ∧ dir.Arranged paths ∧
    ∀ path, path ∈ paths ↔ path ∈ tree.shelf (.entries dir) ∧ keep path = true

/-- What holds of a tree after additions. -/
structure Coherent (additions : List Addition) (tree : MemoryTree) : Prop where
  /-- Every file is an entry of its directory, and that is known. -/
  file : ∀ file ∈ tree.files, tree.dirs.contains (parentOf file) = true ∧
    ∃ entry ∈ tree.shelf (.entries (parentOf file)), entry.Same file
  /-- Every entry of a directory is a directory or a file. -/
  entry : ∀ dir, ∀ entry ∈ tree.shelf (.entries dir),
    tree.dirs.contains entry = true ∨ containsPath tree.files entry = true
  /-- Every entry of a directory lies in it. -/
  placed : ∀ dir, ∀ entry ∈ tree.shelf (.entries dir), entry.LiesIn dir
  /-- The directories are those that additions made known. -/
  known : ∀ dir, tree.dirs.contains dir = true ↔
    ∃ addition ∈ additions, (dirOf addition).Same dir
  /-- No directory is dropped. -/
  lasting : ∀ (more : List Addition) dir, tree.dirs.contains dir = true →
    (more.foldl add tree).dirs.contains dir = true
  /-- No set holds two spellings of one path. -/
  single : ∀ shelf, (tree.shelf shelf).Pairwise fun p q => ¬ p.Same q
  /-- Of all spellings of a path, a set holds the one that was inserted first. -/
  first : ∀ shelf path, path ∈ tree.shelf shelf ↔
    (shelf.received (insertionsAll {} additions)).find? (fun p => p.Same path) = some path
  /-- What a set holds it goes on holding, in that spelling. -/
  kept : ∀ (more : List Addition) shelf, tree.shelf shelf ⊆ (more.foldl add tree).shelf shelf
  groups : ∀ dir, tree.dirs.contains dir = true →
    tree.Shows dir (fun path => tree.dirs.contains path) (memoryTree.listGroups dir tree)
  files : ∀ dir, tree.dirs.contains dir = true →
    tree.Shows dir (containsPath tree.files) (memoryTree.listFiles dir tree)

/-- An entry of a directory is listed there. -/
theorem lists_of_mem_shelf {entry : Path} (h : entry ∈ tree.shelf (.entries dir)) :
    tree.dirs.Lists dir entry := by
  change entry ∈ (tree.dirs.entries? dir).getD [] at h
  cases hentries : tree.dirs.entries? dir with
  | none =>
    rw [hentries] at h
    cases h
  | some entries =>
    rw [hentries] at h
    exact Directories.lists_of_mem hentries h

theorem WellFormed.liesIn_of_mem_shelf (h : tree.WellFormed) {entry : Path}
    (hmem : entry ∈ tree.shelf (.entries dir)) : entry.LiesIn dir :=
  Path.liesIn_iff.mpr (h.placed (lists_of_mem_shelf hmem))

theorem WellFormed.ascending_shelf (h : tree.WellFormed) (shelf : Shelf) :
    Ascending (tree.shelf shelf) := by
  cases shelf with
  | files => exact h.files
  | entries dir => exact h.ascending_entries dir

/-- Every file is an entry of its directory. -/
theorem WellFormed.exists_entry (h : tree.WellFormed) {file : Path} (hfile : file ∈ tree.files) :
    tree.dirs.contains (parentOf file) = true ∧
      ∃ entry ∈ tree.shelf (.entries (parentOf file)), entry.Same file := by
  obtain ⟨entries, hentries, hlisted⟩ :=
    h.listed (containsPath_iff.mpr ⟨file, hfile, Path.Same.refl file⟩)
  refine ⟨Option.isSome_of_eq_some hentries, ?_⟩
  show ∃ entry ∈ (tree.dirs.entries? (parentOf file)).getD [], _
  rw [hentries]
  exact containsPath_iff.mp hlisted

/-- A known directory can be listed. -/
theorem WellFormed.shows_list (h : tree.WellFormed) (hknown : tree.dirs.contains dir = true)
    (keep : Path → Bool) : tree.Shows dir keep (tree.list keep dir) := by
  obtain ⟨entries, hentries⟩ := Option.isSome_iff_exists.mp hknown
  have hshelf : tree.shelf (.entries dir) = entries := by
    show (tree.dirs.entries? dir).getD [] = entries
    rw [hentries]
    rfl
  have hascending : Ascending entries := hshelf ▸ h.ascending_shelf (.entries dir)
  refine ⟨entries.filter keep, ?_, (hascending.filter keep).arranged fun path hmem => ?_, ?_⟩
  · rw [list, hentries]
  · exact h.liesIn_of_mem_shelf (hshelf ▸ List.mem_of_mem_filter hmem)
  · intro path
    rw [hshelf, List.mem_filter]

theorem subset_insertAll (inserted paths : List Path) : paths ⊆ insertAll inserted paths := by
  induction inserted generalizing paths with
  | nil => exact List.Subset.refl _
  | cons path inserted ih => exact List.Subset.trans (subset_insertPath path paths) (ih _)

/-- A tree is coherent after any additions. -/
theorem coherent_ofAdditions (additions : List Addition) :
    Coherent additions (ofAdditions additions) := by
  have hwf := wellFormed_ofAdditions additions
  refine
    { file := fun file hfile => hwf.exists_entry hfile
      entry := fun dir entry hentry => hwf.known (lists_of_mem_shelf hentry)
      placed := fun dir entry hentry => hwf.liesIn_of_mem_shelf hentry
      known := fun dir => contains_ofAdditions
      lasting := fun more dir hknown => add_foldl_known more hknown
      single := fun shelf => (hwf.ascending_shelf shelf).pairwise_not_same
      first := fun shelf path => ?first
      kept := fun more shelf => ?kept
      groups := fun dir hknown => hwf.shows_list hknown _
      files := fun dir hknown => hwf.shows_list hknown _ }
  case first =>
    rw [shelf_ofAdditions, mem_gather]
  case kept =>
    rw [shelf_foldl_add hwf]
    exact subset_insertAll _ _

end MemoryTree

end BatchVerify
