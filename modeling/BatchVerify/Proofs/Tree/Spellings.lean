import BatchVerify.Proofs.Tree.Entries

/-!
# Which spelling a tree in memory keeps

The sets of paths in a tree, its files and the entries of each directory, are what insertions made of
them (`MemoryTree.shelf_ofAdditions`), and of all spellings of a path such a set holds the one that was
inserted first (`mem_gather`). With what additions keep of a tree besides, this tells what a tree is
after any additions, and how its listings are arranged (`MemoryTree.coherent_ofAdditions`).
-/

namespace BatchVerify

open BatchVerify.Path (Ascending)

/-! ## Sets that insertions make -/

theorem containsPath_congr {p q : Path} (h : p.Same q) (paths : List Path) :
    containsPath paths p = containsPath paths q := by
  rw [Bool.eq_iff_iff, containsPath_iff, containsPath_iff]
  exact exists_congr fun member => and_congr_right fun _ =>
    ⟨fun hp => hp.trans h, fun hq => hq.trans h.symm⟩

/-- A path of which a spelling is in a set changes nothing. -/
theorem insertPath_of_containsPath {paths : List Path} {path : Path} (h : Ascending paths)
    (hknown : containsPath paths path = true) : insertPath path paths = paths := by
  induction paths with
  | nil => cases hknown
  | cons first rest ih =>
    obtain ⟨hfirst, hrest⟩ := List.pairwise_cons.mp h
    obtain ⟨member, hmem, hsame⟩ := containsPath_iff.mp hknown
    rw [insertPath]
    cases horder : path.order first with
    | lt =>
      -- the path would come before all members, and is none of them
      have hbefore : path.order member = .lt := by
        rcases List.mem_cons.mp hmem with rfl | hmem
        · exact horder
        · exact Path.order_trans horder (hfirst member hmem)
      exact absurd hsame.symm (Path.not_same_of_order hbefore)
    | eq => rfl
    | gt =>
      have hlater : member ∈ rest := by
        refine (List.mem_cons.mp hmem).resolve_left ?_
        rintro rfl
        exact Path.not_same_of_order (Path.order_eq_gt_iff.mp horder) hsame
      exact congrArg (first :: ·) (ih hrest (containsPath_iff.mpr ⟨member, hlater, hsame⟩))

/-- A path that is new to a set goes in at one place. -/
theorem exists_insertPath_of_new {paths : List Path} {path : Path}
    (hnew : ¬ containsPath paths path = true) :
    ∃ before after, paths = before ++ after ∧ insertPath path paths = before ++ path :: after := by
  induction paths with
  | nil => exact ⟨[], [], rfl, rfl⟩
  | cons first rest ih =>
    rw [insertPath]
    cases horder : path.order first with
    | lt => exact ⟨[], first :: rest, rfl, rfl⟩
    | eq =>
      have hsame : first.Same path := (Path.order_eq_iff.mp horder).symm
      exact absurd (containsPath_iff.mpr ⟨first, List.mem_cons_self, hsame⟩) hnew
    | gt =>
      have hrest : ¬ containsPath rest path = true := by
        rw [containsPath_iff] at hnew ⊢
        rintro ⟨member, hmem, hsame⟩
        exact hnew ⟨member, List.mem_cons_of_mem _ hmem, hsame⟩
      obtain ⟨before, after, hpaths, hinsert⟩ := ih hrest
      refine ⟨first :: before, after, ?_, ?_⟩
      · rw [hpaths]
        rfl
      · dsimp only
        rw [hinsert]
        rfl

/-- After an insertion there is one spelling of the path, among the other paths of the set. -/
theorem exists_insertPath {paths : List Path} (h : Ascending paths) (path : Path) :
    ∃ before spelling after, spelling.Same path ∧
      insertPath path paths = before ++ spelling :: after ∧
      (paths.filter fun p => ¬ p.Same path) = before ++ after := by
  by_cases hknown : containsPath paths path = true
  · obtain ⟨spelling, hmem, hsame⟩ := containsPath_iff.mp hknown
    obtain ⟨before, after, rfl⟩ := List.append_of_mem hmem
    refine ⟨before, spelling, after, hsame, insertPath_of_containsPath h hknown, ?_⟩
    -- no other member is the path
    obtain ⟨-, hafter, hbefore⟩ := List.pairwise_append.mp h.pairwise_not_same
    have hbefore' : ∀ p ∈ before, ¬ p.Same path := fun p hp hpath =>
      hbefore p hp spelling List.mem_cons_self (hpath.trans hsame.symm)
    have hafter' : ∀ p ∈ after, ¬ p.Same path := fun p hp hpath =>
      (List.pairwise_cons.mp hafter).1 p hp (hsame.trans hpath.symm)
    rw [List.filter_append, List.filter_cons_of_neg (by simpa using hsame),
      List.filter_eq_self.mpr (by simpa using hbefore'),
      List.filter_eq_self.mpr (by simpa using hafter')]
  · obtain ⟨before, after, hpaths, hinsert⟩ := exists_insertPath_of_new hknown
    refine ⟨before, path, after, Path.Same.refl path, hinsert, ?_⟩
    rw [← hpaths, List.filter_eq_self]
    intro p hp
    exact decide_eq_true fun hsame => hknown (containsPath_iff.mpr ⟨p, hp, hsame⟩)

theorem mem_insertPath_iff {paths : List Path} {path p : Path} (h : Ascending paths) :
    p ∈ insertPath path paths ↔ p ∈ paths ∨ (p = path ∧ ¬ containsPath paths path = true) := by
  by_cases hknown : containsPath paths path = true
  · simp [insertPath_of_containsPath h hknown, hknown]
  · obtain ⟨before, after, rfl, hinsert⟩ := exists_insertPath_of_new hknown
    rw [hinsert]
    simp only [List.mem_append, List.mem_cons, hknown]
    tauto

/-- Paths inserted into a set one after the other. -/
def insertAll (inserted : List Path) (paths : List Path) : List Path :=
  inserted.foldl (fun paths path => insertPath path paths) paths

theorem ascending_insertAll (inserted : List Path) {paths : List Path} (h : Ascending paths) :
    Ascending (insertAll inserted paths) := by
  induction inserted generalizing paths with
  | nil => exact h
  | cons path inserted ih => exact ih (ascending_insertPath path h)

/-- The set that insertions make. -/
def gather (inserted : List Path) : List Path := insertAll inserted []

theorem ascending_gather (inserted : List Path) : Ascending (gather inserted) :=
  ascending_insertAll inserted List.Pairwise.nil

theorem gather_concat (inserted : List Path) (path : Path) :
    gather (inserted ++ [path]) = insertPath path (gather inserted) := by
  unfold gather insertAll
  rw [List.foldl_append]
  rfl

theorem containsPath_gather {inserted : List Path} {path : Path} :
    containsPath (gather inserted) path = true ↔ ∃ p ∈ inserted, p.Same path := by
  induction inserted using List.reverseRecOn with
  | nil => simp [gather, insertAll, containsPath]
  | append_singleton inserted last ih =>
    rw [gather_concat, containsPath_insertPath, ih]
    simp only [List.mem_append, List.mem_singleton, or_and_right, exists_or, exists_eq_left]
    exact or_comm

/-- Of all spellings of a path, a set holds the one that was inserted first. -/
theorem mem_gather {inserted : List Path} {path : Path} :
    path ∈ gather inserted ↔ inserted.find? (fun p => p.Same path) = some path := by
  induction inserted using List.reverseRecOn with
  | nil => simp [gather, insertAll]
  | append_singleton inserted last ih =>
    have hnone : inserted.find? (fun p => p.Same path) = none ↔
        ¬ containsPath (gather inserted) path = true := by
      rw [containsPath_gather, List.find?_eq_none]
      simp
    rw [gather_concat, mem_insertPath_iff (ascending_gather inserted), ih, List.find?_append,
      Option.or_eq_some_iff, hnone]
    refine or_congr_right ⟨?_, ?_⟩
    · rintro ⟨rfl, hnew⟩
      exact ⟨hnew, by simp [Path.Same]⟩
    · rintro ⟨hnew, hlast⟩
      obtain rfl := List.mem_singleton.mp (List.mem_of_find?_eq_some hlast)
      exact ⟨rfl, hnew⟩

/-! ## The sets of a tree -/

/-- A set of paths in a tree: its files, or the entries of a directory. -/
inductive Shelf where
  | files
  | entries (dir : Path)
  deriving DecidableEq, Repr

/-- Two names of one set. -/
def Shelf.Same : Shelf → Shelf → Prop
  | .files, .files => True
  | .entries dir, .entries dir' => dir.Same dir'
  | .files, .entries _ | .entries _, .files => False

instance : (shelf shelf' : Shelf) → Decidable (shelf.Same shelf')
  | .files, .files => .isTrue trivial
  | .entries dir, .entries dir' => inferInstanceAs (Decidable (dir.Same dir'))
  | .files, .entries _ | .entries _, .files => .isFalse id

/-- The paths that are inserted into one set, in order. -/
def Shelf.received (shelf : Shelf) (insertions : List (Shelf × Path)) : List Path :=
  insertions.filterMap fun insertion => if insertion.1.Same shelf then some insertion.2 else none

theorem Shelf.received_append (shelf : Shelf) (first second : List (Shelf × Path)) :
    shelf.received (first ++ second) = shelf.received first ++ shelf.received second :=
  List.filterMap_append

namespace MemoryTree

variable {tree : MemoryTree}

/-- The paths in a set of a tree. -/
def shelf (tree : MemoryTree) : Shelf → List Path
  | .files => tree.files
  | .entries dir => (tree.dirs.entries? dir).getD []

/-- What is inserted for a directory: itself into the one above, if that is known. -/
def dirInsertions (tree : MemoryTree) (path : Path) : List (Shelf × Path) :=
  match path.parent? with
  | some parent => if tree.dirs.contains parent then [(.entries parent, path)] else []
  | none => []

/-- What is inserted for an addition. A file brings its directory with it, unless that is known. -/
def insertions (tree : MemoryTree) : Addition → List (Shelf × Path)
  | .directory path => tree.dirInsertions path
  | .file path =>
    (if tree.dirs.contains (parentOf path) then [] else tree.dirInsertions (parentOf path)) ++
      [(.entries (parentOf path), path), (.files, path)]

/-- What is inserted for additions, in order. -/
def insertionsAll (tree : MemoryTree) : List Addition → List (Shelf × Path)
  | [] => []
  | addition :: additions =>
    tree.insertions addition ++ (tree.add addition).insertionsAll additions

theorem shelf_openDir (h : tree.dirs.Ordered) (path : Path) (shelf : Shelf) :
    { tree with dirs := tree.dirs.alter path id }.shelf shelf = tree.shelf shelf := by
  cases shelf with
  | files => rfl
  | entries dir =>
    show ((tree.dirs.alter path id).entries? dir).getD [] = (tree.dirs.entries? dir).getD []
    rw [Directories.entries?_alter h.keys]
    split_ifs with hsame
    · rw [Directories.entries?_congr hsame]
      rfl
    · rfl

theorem shelf_enter (h : tree.dirs.Ordered) (dir path : Path) (shelf : Shelf) :
    { tree with dirs := tree.dirs.alter dir (insertPath path) }.shelf shelf =
      insertAll (shelf.received [(.entries dir, path)]) (tree.shelf shelf) := by
  cases shelf with
  | files => rfl
  | entries d =>
    show ((tree.dirs.alter dir (insertPath path)).entries? d).getD [] = _
    rw [Directories.entries?_alter h.keys]
    by_cases hsame : dir.Same d
    · rw [if_pos hsame, Directories.entries?_congr hsame]
      simp [Shelf.received, Shelf.Same, hsame, insertAll, MemoryTree.shelf]
    · rw [if_neg hsame]
      simp [Shelf.received, Shelf.Same, hsame, insertAll, MemoryTree.shelf]

theorem shelf_addDir (h : tree.dirs.Ordered) (path : Path) (shelf : Shelf) :
    (tree.addDir path).shelf shelf =
      insertAll (shelf.received (tree.dirInsertions path)) (tree.shelf shelf) := by
  unfold addDir dirInsertions
  cases path.parent? with
  | none => exact shelf_openDir h path shelf
  | some parent =>
    dsimp only
    split_ifs
    · have hopen := @shelf_openDir { tree with dirs := tree.dirs.alter parent (insertPath path) }
        (h.enter parent path) path shelf
      exact hopen.trans (shelf_enter h parent path shelf)
    · exact shelf_openDir h path shelf

theorem insertAll_append (first second paths : List Path) :
    insertAll (first ++ second) paths = insertAll second (insertAll first paths) :=
  List.foldl_append

theorem shelf_withParent (h : tree.dirs.Ordered) (path : Path) (shelf : Shelf) :
    (tree.withParent path).shelf shelf =
      insertAll (shelf.received
        (if tree.dirs.contains (parentOf path) then [] else tree.dirInsertions (parentOf path)))
        (tree.shelf shelf) := by
  unfold withParent
  split_ifs
  · rfl
  · exact shelf_addDir h _ shelf

/-- The sets of a tree after an addition. -/
theorem shelf_add (h : tree.WellFormed) (addition : Addition) (shelf : Shelf) :
    (tree.add addition).shelf shelf =
      insertAll (shelf.received (tree.insertions addition)) (tree.shelf shelf) := by
  cases addition with
  | directory path => exact shelf_addDir h.ordered path shelf
  | file path =>
    have hordered := (h.withParent path).ordered
    rw [insertions, Shelf.received_append, insertAll_append, ← shelf_withParent h.ordered]
    show (tree.addFile path).shelf shelf = _
    rw [addFile_eq]
    cases shelf with
    | files => rfl
    | entries dir =>
      -- the file goes into the entries of its directory and into the files
      have henter := shelf_enter hordered (parentOf path) path (.entries dir)
      exact henter

theorem shelf_foldl_add (h : tree.WellFormed) (additions : List Addition) (shelf : Shelf) :
    (additions.foldl add tree).shelf shelf =
      insertAll (shelf.received (tree.insertionsAll additions)) (tree.shelf shelf) := by
  induction additions generalizing tree with
  | nil => rfl
  | cons addition additions ih =>
    rw [List.foldl_cons, ih (h.add addition), shelf_add h, insertionsAll, Shelf.received_append,
      insertAll_append]

/-- Every set of a tree is what the insertions into it made. -/
theorem shelf_ofAdditions (additions : List Addition) (shelf : Shelf) :
    (ofAdditions additions).shelf shelf =
      gather (shelf.received (insertionsAll {} additions)) := by
  rw [ofAdditions, shelf_foldl_add WellFormed.empty]
  cases shelf <;> rfl

end MemoryTree

end BatchVerify
