import BatchVerify.Proofs.Tree.Entries

/-!
# The order in which entries come

An operating system hands out the entries of a directory in an order of its own. A listing that
classifies them in that order and sorts what it keeps by name keeps the same paths in the same order,
whatever that order was (`Disk.map_kept_listAsRead`); only the entries that it passes over come as
they were read.
-/

namespace BatchVerify

/-- An order in which an operating system hands out the names in a directory. It may be another one
for every directory and every state of the disk. -/
structure Enumeration where
  order : Path → Disk → List Bytes → List Bytes
  perm : ∀ dir disk names, (order dir disk names).Perm names

/-- The order of paths by their names; a path without a name comes first. -/
def Path.nameLe (p q : Path) : Bool :=
  match p.name?, q.name? with
  | none, _ => true
  | some _, none => false
  | some a, some b => Disk.nameLe a b

namespace Path

theorem nameLe_of_names {p q : Path} {a b : Bytes} (hp : p.name? = some a) (hq : q.name? = some b) :
    p.nameLe q = true ↔ a ≤ b := by
  unfold nameLe
  rw [hp, hq]
  exact Disk.nameLe_iff

theorem nameLe_trans (p q r : Path) (hpq : p.nameLe q = true) (hqr : q.nameLe r = true) :
    p.nameLe r = true := by
  unfold nameLe at *
  cases hp : p.name? with
  | none => rfl
  | some a =>
    cases hq : q.name? with
    | none =>
      rw [hp, hq] at hpq
      cases hpq
    | some b =>
      cases hr : r.name? with
      | none =>
        rw [hq, hr] at hqr
        cases hqr
      | some c =>
        rw [hp, hq] at hpq
        rw [hq, hr] at hqr
        exact Disk.nameLe_iff.mpr (List.le_trans (Disk.nameLe_iff.mp hpq) (Disk.nameLe_iff.mp hqr))

theorem nameLe_total (p q : Path) : (p.nameLe q || q.nameLe p) = true := by
  unfold nameLe
  cases p.name? with
  | none => rfl
  | some a =>
    cases q.name? with
    | none => rfl
    | some b =>
      rw [Bool.or_eq_true, Disk.nameLe_iff, Disk.nameLe_iff]
      exact List.le_total a b

end Path

namespace Disk

variable {disk : Disk}

/-- A listing as it is made: entries are classified as they are read, and those that are kept are
sorted by their names at the end. -/
def listAsRead (enumeration : Enumeration) (keep : Node → Bool) (dir : Path) (disk : Disk) :
    Except Failure Listing :=
  match disk.entryNames dir with
  | .error cause => .error (.system cause)
  | .ok names =>
    let listing := (entryPaths dir (enumeration.order dir disk names)).foldr (disk.classify keep)
      ⟨[], []⟩
    .ok { listing with kept := listing.kept.mergeSort Path.nameLe }

/-- Sorting what is kept of some entries undoes the order in which they were read. -/
theorem mergeSort_entryPaths {names read : List Bytes} (dir : Path) (hnodup : names.Nodup)
    (hnames : ∀ name ∈ names, IsName name) (hread : read.Perm names) (wanted : Path → Bool) :
    ((entryPaths dir read).filter wanted).mergeSort Path.nameLe =
      (entryPaths dir (names.mergeSort nameLe)).filter wanted := by
  have hsorted : ∀ name ∈ names.mergeSort nameLe, IsName name :=
    fun name hname => hnames name (List.mem_mergeSort.mp hname)
  have hentries : dir.Entries ((entryPaths dir (names.mergeSort nameLe)).filter wanted) :=
    entries_entryPaths hsorted (pairwise_mergeSort_names hnodup) wanted
  have hnamed {path : Path} {list : List Bytes} (hlist : ∀ name ∈ list, IsName name)
      (hmem : path ∈ (entryPaths dir list).filter wanted) :
      ∃ name, path = dir.join ⟨name⟩ ∧ path.name? = some name := by
    obtain ⟨name, hname, rfl⟩ := List.mem_map.mp (List.mem_of_mem_filter hmem)
    exact ⟨name, rfl, Path.name?_join_name dir (properName_of_isName (hlist name hname))⟩
  -- two lists of the same paths that are both sorted by name, and no two paths have one name
  refine List.Perm.eq_of_pairwise ?_
    (List.pairwise_mergeSort Path.nameLe_trans Path.nameLe_total _) ?_ ?_
  · intro p q hp hq hle hge
    obtain ⟨a, rfl, ha⟩ := hnamed (fun name h => hnames name (hread.mem_iff.mp h))
      (List.mem_mergeSort.mp hp)
    obtain ⟨b, rfl, hb⟩ := hnamed hsorted hq
    rw [Path.nameLe_of_names ha hb] at hle
    rw [Path.nameLe_of_names hb ha] at hge
    rw [List.le_antisymm hle hge]
  · refine hentries.ascending.imp_of_mem ?_
    intro p q hp hq hlt
    obtain ⟨a, -, ha⟩ := hnamed hsorted hp
    obtain ⟨b, -, hb⟩ := hnamed hsorted hq
    exact (Path.nameLe_of_names ha hb).mpr (List.le_of_lt (hlt ha hb))
  · refine (List.mergeSort_perm _ _).trans (List.Perm.filter wanted (List.Perm.map _ ?_))
    exact hread.trans (List.mergeSort_perm _ _).symm

/-- What a listing keeps does not hang on the order in which entries are read. -/
theorem map_kept_listAsRead (enumeration : Enumeration) (keep : Node → Bool) (dir : Path)
    (disk : Disk) :
    (disk.listAsRead enumeration keep dir).map Listing.kept =
      (disk.list keep dir).map Listing.kept := by
  rw [map_kept_list]
  unfold listAsRead
  cases hnames : disk.entryNames dir with
  | error cause => rfl
  | ok names =>
    obtain ⟨hnodup, hproper⟩ := entryNames_ok hnames
    refine congrArg Except.ok ?_
    dsimp only
    rw [kept_foldr_classify, mergeSort_entryPaths dir hnodup hproper
      (enumeration.perm dir disk names)]

end Disk

/-- A disk as a source tree whose entries are read in a given order. -/
def diskTreeAsRead (enumeration : Enumeration) : SourceTree Disk where
  checkRoot := Disk.checkRoot
  listGroups := Disk.listAsRead enumeration fun node => node = .directory
  listFiles := Disk.listAsRead enumeration fun node => node matches .file _
  ensureDir := Disk.ensureDir

end BatchVerify
