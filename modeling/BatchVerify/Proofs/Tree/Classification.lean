import BatchVerify.Proofs.Disk.Listing
import BatchVerify.Proofs.Layout
import BatchVerify.Proofs.Tree.Enumeration

/-!
# What a listing of a disk tells

The groups of a directory are its entries whose paths lead to directories, and its files are those
whose paths lead to regular files, however many links are on the way; an entry whose path leads
nowhere is in neither (`Disk.list_classifies`). No entry keeps another from being listed, and the
order in which entries are read does not show.
-/

namespace BatchVerify

/-- Both paths have names, and that of the first comes before that of the second, byte by byte. -/
def Path.NamedBefore (p q : Path) : Prop :=
  ∃ a b, p.name? = some a ∧ q.name? = some b ∧ a < b

namespace Disk

/-- A path leads to a place along a route on which links are followed. -/
def LeadsTo (disk : Disk) (path : Path) (place : Location) : Prop :=
  ∃ pieces, path.pieces = .ok pieces ∧
    disk.Route .target maxLinks (disk.start path) pieces (.place place)

/-- The paths of the entries of a directory that lead to something wanted, each once and in the order
of the names. -/
structure Classifies (disk : Disk) (wanted : Node → Prop) (dir : Path) (place : Location)
    (paths : List Path) : Prop where
  mem_iff : ∀ path, path ∈ paths ↔ ∃ name, (disk.node? (name :: place)).isSome ∧
    path = dir.join ⟨name⟩ ∧
    ∃ found node, disk.LeadsTo path found ∧ disk.node? found = some node ∧ wanted node
  ascending : paths.Pairwise Path.NamedBefore

variable {disk : Disk} {dir path : Path} {place : Location} {keep : Node → Bool}
  {wanted wanted' : Node → Prop} {paths paths' : List Path}

theorem leadsTo_iff : disk.LeadsTo path place ↔ disk.find path = .ok place := find_eq_ok_iff.symm

theorem keeps_iff (hkeep : ∀ node, keep node = true ↔ wanted node) (path : Path) :
    disk.keeps keep path = true ↔
      ∃ found node, disk.LeadsTo path found ∧ disk.node? found = some node ∧ wanted node := by
  have hlook : disk.keeps keep path = true ↔ ∃ node, disk.lookUp path = .ok node ∧ wanted node := by
    unfold keeps
    cases disk.lookUp path with
    | error cause => simp
    | ok node => simp [hkeep]
  rw [hlook]
  constructor
  · rintro ⟨node, hnode, hwanted⟩
    obtain ⟨found, hfind, hthere⟩ := lookUp_eq_ok_iff.mp hnode
    exact ⟨found, node, leadsTo_iff.mpr hfind, hthere, hwanted⟩
  · rintro ⟨found, node, hleads, hthere, hwanted⟩
    exact ⟨node, lookUp_eq_ok_iff.mpr ⟨found, leadsTo_iff.mp hleads, hthere⟩, hwanted⟩

/-- A listing keeps what leads to something wanted, whatever the other entries are, and in whatever
order all of them are read. -/
theorem exists_classifying (hleads : disk.LeadsTo dir place)
    (hdir : disk.node? place = some .directory) (hkeep : ∀ node, keep node = true ↔ wanted node) :
    ∃ listing, disk.list keep dir = .ok listing ∧ disk.Classifies wanted dir place listing.kept ∧
      ∀ enumeration,
        (disk.listAsRead enumeration keep dir).map Listing.kept = .ok listing.kept := by
  obtain ⟨listing, hlist, hkept⟩ := exists_list (leadsTo_iff.mp hleads) hdir keep
  refine ⟨listing, hlist, ⟨fun path => ?_, ?_⟩, fun enumeration => ?_⟩
  · rw [hkept, List.mem_filter, keeps_iff hkeep, entryPaths, List.mem_map]
    constructor
    · rintro ⟨⟨name, hmem, rfl⟩, hfound⟩
      exact ⟨name, mem_names_iff.mp (List.mem_mergeSort.mp hmem), rfl, hfound⟩
    · rintro ⟨name, hthere, rfl, hfound⟩
      exact ⟨⟨name, List.mem_mergeSort.mpr (mem_names_iff.mpr hthere), rfl⟩, hfound⟩
  · rw [hkept]
    refine List.Pairwise.filter _ (List.pairwise_map.mpr ?_)
    -- names that are all different, and each the name of its path
    refine (pairwise_mergeSort_names (nodup_names disk place)).imp_of_mem ?_
    intro name name' hmem hmem' hlt
    have hproper := properName_of_isName (isName_of_mem_names (List.mem_mergeSort.mp hmem))
    have hproper' := properName_of_isName (isName_of_mem_names (List.mem_mergeSort.mp hmem'))
    exact ⟨name, name', Path.name?_join_name dir hproper, Path.name?_join_name dir hproper', hlt⟩
  · rw [map_kept_listAsRead, hlist]
    rfl

/-- What leads nowhere is not listed. -/
theorem Classifies.not_mem_of_lost (h : disk.Classifies wanted dir place paths) {cause : SystemError}
    (hlost : disk.find path = .error cause) : path ∉ paths := by
  intro hmem
  obtain ⟨-, -, -, found, -, hleads, -⟩ := (h.mem_iff path).mp hmem
  cases hlost.symm.trans (leadsTo_iff.mp hleads)

/-- The name of an entry is that of its path. -/
theorem Classifies.exists_name (h : disk.Classifies wanted dir place paths) (hmem : path ∈ paths) :
    ∃ name, ProperName name ∧ path = dir.join ⟨name⟩ := by
  obtain ⟨name, hthere, rfl, -⟩ := (h.mem_iff path).mp hmem
  exact ⟨name, properName_of_isName (isName_of_mem_names (mem_names_iff.mpr hthere)), rfl⟩

/-- An entry is one path however it is spelled, and that leads to one thing. -/
theorem Classifies.not_same (h : disk.Classifies wanted dir place paths)
    (h' : disk.Classifies wanted' dir place paths') (hexclusive : ∀ node, wanted node → ¬ wanted' node)
    {p q : Path} (hp : p ∈ paths) (hq : q ∈ paths') : ¬ p.Same q := by
  intro hsame
  obtain ⟨name, hproper, hname⟩ := h.exists_name hp
  obtain ⟨name', hproper', hname'⟩ := h'.exists_name hq
  have hnames : name = name' := by
    have heq := hsame.name?_eq
    rw [hname, hname', Path.name?_join_name dir hproper, Path.name?_join_name dir hproper'] at heq
    exact Option.some.inj heq
  have hpaths : p = q := by rw [hname, hname', hnames]
  obtain ⟨-, -, -, found, node, hleads, hnode, hwanted⟩ := (h.mem_iff p).mp hp
  obtain ⟨-, -, -, found', node', hleads', hnode', hwanted'⟩ := (h'.mem_iff q).mp hq
  have hfind := leadsTo_iff.mp hleads
  rw [hpaths, leadsTo_iff.mp hleads'] at hfind
  cases hfind
  cases hnode.symm.trans hnode'
  exact hexclusive node hwanted hwanted'

/-- A directory can be listed. Its groups are the entries that lead to directories and its files those
that lead to regular files, each list in the strict order of names and none with an entry of the
other. The order in which entries are read does not count, and every group has a name. -/
theorem list_classifies (hleads : disk.LeadsTo dir place)
    (hdir : disk.node? place = some .directory) :
    ∃ groups files, disk.listGroups dir = .ok groups ∧ disk.listFiles dir = .ok files ∧
      disk.Classifies (fun node => node = .directory) dir place groups.kept ∧
      disk.Classifies (fun node => ∃ file, node = .file file) dir place files.kept ∧
      (∀ p ∈ groups.kept, ∀ q ∈ files.kept, ¬ p.Same q) ∧
      (∀ enumeration,
        ((diskTreeAsRead enumeration).listGroups dir disk).map Listing.kept = .ok groups.kept ∧
        ((diskTreeAsRead enumeration).listFiles dir disk).map Listing.kept = .ok files.kept) ∧
      ∀ path ∈ groups.kept, ∃ group, Group.ofPath? path = some group ∧ group.path = path := by
  have hdirectory (node : Node) : decide (node = .directory) = true ↔ node = .directory :=
    decide_eq_true_iff
  obtain ⟨groups, hgroups, hclassified, hread⟩ := exists_classifying hleads hdir hdirectory
  obtain ⟨files, hfiles, hclassified', hread'⟩ := exists_classifying hleads hdir fun node => node.isFile_iff
  refine ⟨groups, files, hgroups, hfiles, hclassified, hclassified', ?_,
    fun enumeration => ⟨hread enumeration, hread' enumeration⟩, ?_⟩
  · intro p hp q hq
    refine hclassified.not_same hclassified' ?_ hp hq
    rintro node rfl ⟨file, hnode⟩
    cases hnode
  · intro path hmem
    obtain ⟨name, hproper, rfl⟩ := hclassified.exists_name hmem
    have hname := Path.name?_join_name dir hproper
    exact ⟨⟨name, dir.join ⟨name⟩⟩, Group.ofPath?_eq_some_iff.mpr ⟨rfl, hname⟩, rfl⟩

/-- A directory with a chain of links to a group, a link through `..` to a file, links that go round,
and one that leads nowhere. -/
def tangledDisk : Disk where
  nodes :=
    [ ([Utf8.encode "data"], .directory),
      ([Utf8.encode "round", Utf8.encode "data"], .link (Path.ofString "trip")),
      ([Utf8.encode "one", Utf8.encode "data"], .link (Path.ofString "two/.")),
      ([Utf8.encode "two", Utf8.encode "data"], .link (Path.ofString "/data/alpha")),
      ([Utf8.encode "gone", Utf8.encode "data"], .link (Path.ofString "nowhere")),
      ([Utf8.encode "alpha", Utf8.encode "data"], .directory),
      ([Utf8.encode "a.bpl", Utf8.encode "alpha", Utf8.encode "data"], .file {}),
      ([Utf8.encode "back", Utf8.encode "data"], .link (Path.ofString "one/../one/a.bpl")),
      ([Utf8.encode "trip", Utf8.encode "data"], .link (Path.ofString "round")) ]

/-- The end of a chain of links counts, and links that end nowhere keep nothing else out. -/
theorem list_classifies_tangled :
    ∃ groups files, tangledDisk.listGroups (Path.ofString "data") = .ok groups ∧
      tangledDisk.listFiles (Path.ofString "data") = .ok files ∧
      Path.ofString "data/one" ∈ groups.kept ∧ Path.ofString "data/back" ∈ files.kept ∧
      Path.ofString "data/round" ∉ groups.kept ∧ Path.ofString "data/gone" ∉ files.kept := by
  have hleads : tangledDisk.LeadsTo (Path.ofString "data") [Utf8.encode "data"] :=
    leadsTo_iff.mpr (by decide +kernel)
  obtain ⟨groups, files, hgroups, hfiles, hclassified, hclassified', -⟩ :=
    list_classifies hleads (by decide +kernel)
  refine ⟨groups, files, hgroups, hfiles, ?_, ?_, ?_, ?_⟩
  · refine (hclassified.mem_iff _).mpr ⟨Utf8.encode "one", by decide +kernel, by decide +kernel,
      [Utf8.encode "alpha", Utf8.encode "data"], _, leadsTo_iff.mpr ?_, ?_, rfl⟩
    · decide +kernel
    · decide +kernel
  · refine (hclassified'.mem_iff _).mpr ⟨Utf8.encode "back", by decide +kernel, by decide +kernel,
      [Utf8.encode "a.bpl", Utf8.encode "alpha", Utf8.encode "data"], _, leadsTo_iff.mpr ?_, ?_,
      {}, rfl⟩
    · decide +kernel
    · decide +kernel
  · have hloop : tangledDisk.find (Path.ofString "data/round") = .error (.os .linkLoop) := by
      decide +kernel
    exact hclassified.not_mem_of_lost hloop
  · have hnowhere : tangledDisk.find (Path.ofString "data/gone") = .error (.os .noEntry) := by
      decide +kernel
    exact hclassified'.not_mem_of_lost hnowhere

end Disk

end BatchVerify
