import BatchVerify.Proofs.Path.Join
import BatchVerify.Proofs.Tree.Invariant
import BatchVerify.Tree.OnDisk
import Mathlib.Data.List.Sort

/-!
# Entries of a directory

What a listing of a directory keeps lies right in that directory and comes in the strict order of
its names, byte by byte (`Path.Entries`). A tree in memory sorts whole paths by their components and
a disk sorts names; for the entries of one directory both orders are the order of names
(`MemoryTree.entries_of_list`, `Disk.entries_of_list`).
-/

namespace BatchVerify

/-! ## The order of names -/

/-- Comparing two names is comparing them byte by byte. -/
theorem Bytes.compare_eq_lt_iff (a b : Bytes) : compare a b = .lt ↔ a < b := by
  induction a generalizing b with
  | nil => cases b <;> simp
  | cons x a ih =>
    cases b with
    | nil => simp
    | cons y b =>
      rw [List.compare_cons_cons, Ordering.then_eq_lt, List.cons_lt_cons_iff, ih,
        Std.compare_eq_lt, Std.compare_eq_iff_eq]

namespace Path

variable {p q : Path} {init : List Component} {a b : Bytes}

theorem compare_append (keys keys' keys'' : List Bytes) :
    compare (keys ++ keys') (keys ++ keys'') = compare keys' keys'' := by
  induction keys with
  | nil => rfl
  | cons key keys ih =>
    rw [List.cons_append, List.cons_append, List.compare_cons_cons, Std.compare_self, ih]
    rfl

/-- Paths that differ in their names only come in the order of their names. -/
theorem order_eq_lt_iff_of_names (hp : p.components = init ++ [.name a])
    (hq : q.components = init ++ [.name b]) : p.order q = .lt ↔ a < b := by
  unfold order
  rw [hp, hq, List.map_append, List.map_append, compare_append, List.map_singleton,
    List.map_singleton, List.compare_cons_cons, Ordering.then_eq_lt]
  simp only [Component.rank]
  rw [Bytes.compare_eq_lt_iff, List.cons_lt_cons_iff]
  simp

/-- Paths right in a directory, in the strict order of their names; what has no name is left
aside. -/
structure Entries (dir : Path) (paths : List Path) : Prop where
  below : ∀ {path name}, path ∈ paths → path.name? = some name →
    path.components = dir.components ++ [.name name]
  ascending : paths.Pairwise fun p q =>
    ∀ {a b}, p.name? = some a → q.name? = some b → a < b

theorem Entries.nil (dir : Path) : Entries dir [] where
  below hmem := absurd hmem List.not_mem_nil
  ascending := List.Pairwise.nil

end Path

open BatchVerify.Path (Ascending)

namespace MemoryTree

variable {tree : MemoryTree}

/-- A listing of a tree in memory keeps entries of the directory, in order. -/
theorem WellFormed.entries_of_list (h : tree.WellFormed) {keep : Path → Bool} {dir : Path}
    {listing : Listing} (hlist : tree.list keep dir = .ok listing) :
    Path.Entries dir listing.kept := by
  unfold list at hlist
  split at hlist
  · next entries hentries =>
    cases hlist
    have hbelow {path : Path} {name : Bytes} (hmem : path ∈ entries)
        (hname : path.name? = some name) : path.components = dir.components ++ [.name name] := by
      have hplaced : (parentOf path).Same dir := h.placed (Directories.lists_of_mem hentries hmem)
      unfold Path.Same at hplaced
      rw [components_parentOf] at hplaced
      rw [Path.components_of_name? hname, hplaced]
    have hascending : Ascending entries := h.ordered.entries hentries
    refine ⟨fun hmem hname => hbelow (List.mem_of_mem_filter hmem) hname, ?_⟩
    refine List.Pairwise.filter keep (hascending.imp_of_mem ?_)
    intro p q hp hq hlt a b ha hb
    exact (Path.order_eq_lt_iff_of_names (hbelow hp ha) (hbelow hq hb)).mp hlt
  · cases hlist

end MemoryTree

namespace Disk

variable {disk : Disk} {keep : Node → Bool} {dir : Path}

theorem properName_of_isName {name : Bytes} (h : IsName name) : ProperName name :=
  ⟨h.2.2.2.1, h.1, h.2.1, h.2.2.1⟩

/-- The names in a directory are names that something can have. -/
theorem isName_of_mem_names {place : Location} {name : Bytes} (h : name ∈ disk.names place) :
    IsName name := by
  unfold names at h
  obtain ⟨⟨here, node⟩, hmem, hname⟩ := List.mem_filterMap.mp h
  cases here with
  | nil => cases hname
  | cons first parent =>
    have hrooted := disk.rooted _ hmem
    dsimp only at hname
    split_ifs at hname
    cases hname
    exact hrooted.1

/-- No name is twice in a directory. -/
theorem nodup_names (disk : Disk) (place : Location) : (disk.names place).Nodup := by
  have hnames : disk.names place = (disk.nodes.map Prod.fst).filterMap fun
      | name :: parent => if parent = place then some name else none
      | [] => none := by
    rw [List.filterMap_map]
    unfold names
    congr 1
    funext ⟨here, node⟩
    cases here <;> rfl
  rw [hnames]
  -- a place is its name in its directory, so two places in one directory differ by name
  refine List.Nodup.filterMap ?_ disk.distinct
  intro here here' name hhere hhere'
  cases here with
  | nil => cases hhere
  | cons first parent =>
    cases here' with
    | nil => cases hhere'
    | cons first' parent' =>
      simp only [Option.mem_def, Option.ite_none_right_eq_some, Option.some.injEq] at hhere hhere'
      obtain ⟨rfl, rfl⟩ := hhere
      obtain ⟨rfl, rfl⟩ := hhere'
      rfl

theorem nameLe_iff {a b : Bytes} : nameLe a b = true ↔ a ≤ b := by
  unfold nameLe
  exact decide_eq_true_iff

/-- Names that are all different, once sorted, come in strict order. -/
theorem pairwise_mergeSort_names {names : List Bytes} (h : names.Nodup) :
    (names.mergeSort nameLe).Pairwise (· < ·) := by
  have htrans (a b c : Bytes) (hab : nameLe a b = true) (hbc : nameLe b c = true) :
      nameLe a c = true :=
    nameLe_iff.mpr (List.le_trans (nameLe_iff.mp hab) (nameLe_iff.mp hbc))
  have htotal (a b : Bytes) : (nameLe a b || nameLe b a) = true := by
    rw [Bool.or_eq_true, nameLe_iff, nameLe_iff]
    exact List.le_total a b
  have hsorted := List.pairwise_mergeSort htrans htotal names
  have hnodup : (names.mergeSort nameLe).Nodup := (List.mergeSort_perm names nameLe).nodup_iff.mpr h
  refine (hsorted.and hnodup).imp ?_
  intro a b ⟨hle, hne⟩
  exact (List.le_iff_lt_or_eq.mp (nameLe_iff.mp hle)).resolve_right hne

/-- An entry leads to what is wanted. -/
def keeps (disk : Disk) (keep : Node → Bool) (entry : Path) : Bool :=
  match disk.lookUp entry with
  | .ok node => keep node
  | .error _ => false

/-- What a listing keeps of the entries that it goes through. -/
theorem kept_foldr_classify (disk : Disk) (keep : Node → Bool) (entries : List Path) :
    (entries.foldr (disk.classify keep) ⟨[], []⟩).kept = entries.filter (disk.keeps keep) := by
  induction entries with
  | nil => rfl
  | cons entry entries ih =>
    rw [List.foldr_cons, List.filter_cons, ← ih]
    unfold keeps
    rw [classify]
    cases disk.lookUp entry with
    | error cause => rfl
    | ok node =>
      dsimp only
      split_ifs <;> rfl

/-- The names in the directory that a path leads to, in no particular order. -/
def entryNames (disk : Disk) (path : Path) : Except SystemError (List Bytes) := do
  let place ← disk.find path
  if disk.node? place = some .directory then .ok (disk.names place)
  else .error (.os .notDirectory)

theorem sortedNames_eq (disk : Disk) (path : Path) :
    disk.sortedNames path = (disk.entryNames path).map fun names => names.mergeSort nameLe := by
  unfold sortedNames entryNames
  cases disk.find path with
  | error cause => rfl
  | ok place =>
    simp only [bind, Except.bind]
    split_ifs <;> rfl

theorem entryNames_ok {names : List Bytes} (h : disk.entryNames dir = .ok names) :
    names.Nodup ∧ ∀ name ∈ names, IsName name := by
  unfold entryNames at h
  cases hplace : disk.find dir with
  | error cause =>
    rw [hplace] at h
    cases h
  | ok place =>
    rw [hplace] at h
    simp only [bind, Except.bind] at h
    split_ifs at h
    cases h
    exact ⟨nodup_names disk place, fun name hname => isName_of_mem_names hname⟩

/-- The paths of names in a directory. -/
def entryPaths (dir : Path) (names : List Bytes) : List Path := names.map fun name => dir.join ⟨name⟩

theorem entries_entryPaths {names : List Bytes} (hnames : ∀ name ∈ names, IsName name)
    (hsorted : names.Pairwise (· < ·)) (wanted : Path → Bool) :
    Path.Entries dir ((entryPaths dir names).filter wanted) := by
  have hpath {path : Path} {name : Bytes} (hmem : path ∈ entryPaths dir names)
      (hname : path.name? = some name) : path = dir.join ⟨name⟩ ∧ ProperName name := by
    obtain ⟨entry, hentry, rfl⟩ := List.mem_map.mp hmem
    have hproper := properName_of_isName (hnames entry hentry)
    rw [Path.name?_join_name dir hproper] at hname
    cases hname
    exact ⟨rfl, hproper⟩
  refine ⟨fun hmem hname => ?_, List.Pairwise.filter wanted (List.pairwise_map.mpr ?_)⟩
  · obtain ⟨rfl, hproper⟩ := hpath (List.mem_of_mem_filter hmem) hname
    exact Path.components_join_name dir hproper
  · refine hsorted.imp_of_mem ?_
    intro name name' hmem hmem' hlt a b ha hb
    rw [Path.name?_join_name dir (properName_of_isName (hnames name hmem))] at ha
    rw [Path.name?_join_name dir (properName_of_isName (hnames name' hmem'))] at hb
    cases ha
    cases hb
    exact hlt

/-- What a listing of a disk keeps. -/
theorem map_kept_list (disk : Disk) (keep : Node → Bool) (dir : Path) :
    (disk.list keep dir).map Listing.kept =
      match disk.entryNames dir with
      | .error cause => .error (.system cause)
      | .ok names => .ok ((entryPaths dir (names.mergeSort nameLe)).filter (disk.keeps keep)) := by
  unfold list
  rw [sortedNames_eq]
  cases disk.entryNames dir with
  | error cause => rfl
  | ok names => exact congrArg Except.ok (kept_foldr_classify disk keep _)

/-- A directory can be listed, and what is kept are the paths of names there, in order. -/
theorem exists_list {place : Location} (hplace : disk.find dir = .ok place)
    (hdir : disk.node? place = some .directory) (keep : Node → Bool) :
    ∃ listing, disk.list keep dir = .ok listing ∧ listing.kept =
      (entryPaths dir ((disk.names place).mergeSort nameLe)).filter (disk.keeps keep) := by
  have hnames : disk.entryNames dir = .ok (disk.names place) := by
    rw [entryNames, hplace]
    exact if_pos hdir
  have hkept := map_kept_list disk keep dir
  rw [hnames] at hkept
  cases hlist : disk.list keep dir with
  | error failure =>
    rw [hlist] at hkept
    cases hkept
  | ok listing =>
    rw [hlist] at hkept
    exact ⟨listing, rfl, Except.ok.inj hkept⟩

/-- A listing of a disk keeps entries of the directory, in order. -/
theorem entries_of_list {listing : Listing} (h : disk.list keep dir = .ok listing) :
    Path.Entries dir listing.kept := by
  have hkept := map_kept_list disk keep dir
  rw [h] at hkept
  cases hnames : disk.entryNames dir with
  | error cause =>
    rw [hnames] at hkept
    cases hkept
  | ok names =>
    rw [hnames] at hkept
    obtain ⟨hnodup, hproper⟩ := entryNames_ok hnames
    rw [show listing.kept = _ from Except.ok.inj hkept]
    refine entries_entryPaths (fun name hname => hproper name ?_) (pairwise_mergeSort_names hnodup) _
    exact List.mem_mergeSort.mp hname

end Disk

end BatchVerify
