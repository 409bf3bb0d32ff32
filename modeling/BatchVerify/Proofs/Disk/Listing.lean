import BatchVerify.Proofs.Disk.Linkless
import BatchVerify.Proofs.Tree.Entries
import Mathlib.Data.List.Sort

/-!
# Listings while a disk grows

Without links, what a listing keeps is told by the names in its directory
(`Disk.Linkless.exists_listing`). So while a disk grows a directory keeps its files
(`Disk.Linkless.listFiles_grown`), and directories that are new have none
(`Disk.Linkless.listGroups_grown`).
-/

namespace BatchVerify

/-- What a listing of files keeps. -/
def Node.isFile (node : Node) : Bool := node matches .file _

theorem Node.isFile_iff {node : Node} : node.isFile = true ↔ ∃ file, node = .file file := by
  cases node <;> simp [isFile]

namespace Disk

variable {disk after : Disk} {keep : Node → Bool} {dir root path : Path} {place : Location}
  {listing : Listing}

theorem Linkless.of_grows (h : after.Linkless) (hgrows : disk.Grows after) : disk.Linkless :=
  fun place target hlink => h place target (hgrows.node?_eq hlink)

theorem Linkless.grows (h : disk.Linkless) (hgrows : disk.Grows after) : after.Linkless := by
  intro place target hlink
  rcases hgrows.node? place with hsame | ⟨-, hdir⟩
  · exact h place target (hsame.symm.trans hlink)
  · rw [hdir] at hlink
    cases hlink

/-- A listing keeps what leads to something wanted. -/
theorem lookUp_of_mem_kept (h : disk.list keep dir = .ok listing) (hmem : path ∈ listing.kept) :
    ∃ node, disk.lookUp path = .ok node ∧ keep node = true := by
  have hkept := map_kept_list disk keep dir
  rw [h] at hkept
  cases hnames : disk.entryNames dir with
  | error cause =>
    rw [hnames] at hkept
    cases hkept
  | ok names =>
    rw [hnames] at hkept
    rw [show listing.kept = _ from Except.ok.inj hkept] at hmem
    have hkeeps := (List.mem_filter.mp hmem).2
    unfold keeps at hkeeps
    split at hkeeps
    · next node hlook => exact ⟨node, hlook, hkeeps⟩
    · cases hkeeps

/-- Names of what is wanted in a directory, in order, as far as their paths are not too long. -/
structure Wanted (disk : Disk) (keep : Node → Bool) (dir : Path) (place : Location)
    (names : List Bytes) : Prop where
  ascending : names.Pairwise (· < ·)
  mem_iff : ∀ name, name ∈ names ↔ (dir.join ⟨name⟩).bytes.length < maxPathLength ∧
    ∃ node, disk.node? (name :: place) = some node ∧ keep node = true

theorem isName_of_node? {name : Bytes} {node : Node} (h : disk.node? (name :: place) = some node) :
    IsName name :=
  isName_of_mem_names (mem_names_iff.mpr (by rw [h]; rfl))

/-- A directory can be listed, and without links the listing keeps the names of what is wanted. -/
theorem Linkless.exists_listing (h : disk.Linkless) (hplace : disk.find dir = .ok place)
    (hdir : disk.node? place = some .directory) (keep : Node → Bool) :
    ∃ listing names, disk.list keep dir = .ok listing ∧ listing.kept = entryPaths dir names ∧
      disk.Wanted keep dir place names := by
  obtain ⟨listing, hlist, hkept⟩ := exists_list hplace hdir keep
  refine ⟨listing, ((disk.names place).mergeSort nameLe).filter
    (fun name => disk.keeps keep (dir.join ⟨name⟩)), hlist, ?_, ?_, fun name => ?_⟩
  · rw [hkept, entryPaths, List.filter_map]
    rfl
  · exact (pairwise_mergeSort_names (nodup_names disk place)).filter _
  · rw [List.mem_filter, List.mem_mergeSort]
    constructor
    · rintro ⟨hmem, hkeeps⟩
      unfold keeps at hkeeps
      split at hkeeps
      · next node hlook =>
        obtain ⟨hshort, hnode⟩ := (h.lookUp_join_iff hplace (isName_of_mem_names hmem)).mp hlook
        exact ⟨hshort, node, hnode, hkeeps⟩
      · cases hkeeps
    · rintro ⟨hshort, node, hnode, hkeep⟩
      have hlook := (h.lookUp_join_iff hplace (isName_of_node? hnode)).mpr ⟨hshort, hnode⟩
      refine ⟨mem_names_iff.mpr (by rw [hnode]; rfl), ?_⟩
      rw [keeps, hlook]
      exact hkeep

/-- What is no directory is there while a disk grows just when it was there before. -/
theorem Grows.exists_node_iff (h : disk.Grows after) (hkeep : keep .directory = false) :
    (∃ node, after.node? place = some node ∧ keep node = true) ↔
      ∃ node, disk.node? place = some node ∧ keep node = true := by
  constructor
  · rintro ⟨node, hnode, hwanted⟩
    rcases h.node? place with hsame | ⟨-, hdir⟩
    · exact ⟨node, hsame.symm.trans hnode, hwanted⟩
    · rw [hdir] at hnode
      cases hnode
      rw [hkeep] at hwanted
      cases hwanted
  · rintro ⟨node, hnode, hwanted⟩
    exact ⟨node, h.node?_eq hnode, hwanted⟩

/-- While a disk grows a directory keeps its files. -/
theorem Linkless.listFiles_grown (h : after.Linkless) (hgrows : disk.Grows after)
    (hdir : disk.lookUp dir = .ok .directory) :
    ∃ listing listing', disk.listFiles dir = .ok listing ∧ after.listFiles dir = .ok listing' ∧
      listing'.kept = listing.kept := by
  obtain ⟨place, hplace, hnode⟩ := lookUp_eq_ok_iff.mp hdir
  obtain ⟨listing, names, hlist, hkept, hwanted⟩ :=
    (h.of_grows hgrows).exists_listing hplace hnode Node.isFile
  obtain ⟨listing', names', hlist', hkept', hwanted'⟩ :=
    h.exists_listing (find_kept hgrows.keeps hplace) (hgrows.node?_eq hnode) Node.isFile
  refine ⟨listing, listing', hlist, hlist', ?_⟩
  rw [hkept, hkept']
  refine congrArg (entryPaths dir) (hwanted'.ascending.eq_of_mem_iff hwanted.ascending fun name => ?_)
  rw [hwanted'.mem_iff, hwanted.mem_iff, hgrows.exists_node_iff rfl]

/-- A directory that is new has no files. -/
theorem Linkless.listFiles_new (h : after.Linkless) (hgrows : disk.Grows after)
    (hplace : after.find dir = .ok place) (hnode : after.node? place = some .directory)
    (hfree : disk.node? place = none) :
    ∃ listing, after.listFiles dir = .ok listing ∧ listing.kept = [] := by
  obtain ⟨listing, names, hlist, hkept, hwanted⟩ := h.exists_listing hplace hnode Node.isFile
  refine ⟨listing, hlist, ?_⟩
  have hnone : names = [] := by
    refine List.eq_nil_iff_forall_not_mem.mpr fun name hmem => ?_
    obtain ⟨-, hfile⟩ := (hwanted.mem_iff name).mp hmem
    -- a file was there before, and so was its directory
    obtain ⟨node, hbefore, -⟩ := (hgrows.exists_node_iff rfl).mp hfile
    rw [(directory_of_node?_cons hbefore).2] at hfree
    cases hfree
  rw [hkept, hnone]
  rfl

/-- While a disk grows, a directory keeps the directories in it. Those that are new have no files. -/
theorem Linkless.listGroups_grown (h : after.Linkless) (hgrows : disk.Grows after)
    (hdir : disk.lookUp root = .ok .directory) :
    ∃ listing listing', disk.listGroups root = .ok listing ∧ after.listGroups root = .ok listing' ∧
      listing.kept = listing'.kept.filter disk.isDirectory ∧
      ∀ path ∈ listing'.kept, disk.isDirectory path = false →
        ∃ files, after.listFiles path = .ok files ∧ files.kept = [] := by
  obtain ⟨place, hplace, hnode⟩ := lookUp_eq_ok_iff.mp hdir
  have hbefore := h.of_grows hgrows
  obtain ⟨listing, names, hlist, hkept, hwanted⟩ :=
    hbefore.exists_listing hplace hnode fun node => node = .directory
  have hplace' := find_kept hgrows.keeps hplace
  obtain ⟨listing', names', hlist', hkept', hwanted'⟩ :=
    h.exists_listing hplace' (hgrows.node?_eq hnode) fun node => node = .directory
  have hthere {name : Bytes} {node : Node} (hname : after.node? (name :: place) = some node) :
      disk.isDirectory (root.join ⟨name⟩) = true ↔
        (root.join ⟨name⟩).bytes.length < maxPathLength ∧
          disk.node? (name :: place) = some .directory := by
    rw [isDirectory_iff, hbefore.lookUp_join_iff hplace (isName_of_node? hname)]
  refine ⟨listing, listing', hlist, hlist', ?_, ?_⟩
  · rw [hkept, hkept', entryPaths, entryPaths, List.filter_map]
    refine congrArg (List.map _) (hwanted.ascending.eq_of_mem_iff (hwanted'.ascending.filter _) ?_)
    intro name
    rw [List.mem_filter, hwanted.mem_iff, hwanted'.mem_iff]
    constructor
    · rintro ⟨hshort, node, hfound, hkeep⟩
      obtain rfl : node = .directory := of_decide_eq_true hkeep
      have hfound' := hgrows.node?_eq hfound
      exact ⟨⟨hshort, _, hfound', hkeep⟩, (hthere hfound').mpr ⟨hshort, hfound⟩⟩
    · rintro ⟨⟨hshort, node, hfound', hkeep⟩, hold⟩
      exact ⟨hshort, _, ((hthere hfound').mp hold).2, rfl⟩
  · intro path hmem hnew
    rw [hkept'] at hmem
    obtain ⟨name, hname, rfl⟩ := List.mem_map.mp hmem
    obtain ⟨hshort, node, hfound, hkeep⟩ := (hwanted'.mem_iff name).mp hname
    obtain rfl : node = .directory := of_decide_eq_true hkeep
    have hfind : after.find (root.join ⟨name⟩) = .ok (name :: place) :=
      (h.find_join_iff hplace' (isName_of_node? hfound)).mpr ⟨hshort, rfl, by rw [hfound]; rfl⟩
    refine h.listFiles_new hgrows hfind hfound ?_
    rcases hgrows.node? (name :: place) with hsame | ⟨hfree, -⟩
    · -- what has not changed was a directory before
      rw [(hthere hfound).mpr ⟨hshort, hsame.symm.trans hfound⟩] at hnew
      cases hnew
    · exact hfree

end Disk

end BatchVerify
