import BatchVerify.Proofs.Disk.Growth
import BatchVerify.Proofs.Tree.Canonical

/-!
# A disk that mirrors a tree in memory

Canonical additions can all be made on a disk whose working directory is empty, and then it holds
just what they put (`Disk.exists_mirror`). It answers what a tree in memory answers after the same
additions (`Twins.checkRoot_eq`, `Twins.listGroups_eq`, `Twins.listFiles_eq`). Directories that are
made on it later change nothing about the files in a directory, even if they are made right there
(`Twins.listFiles_grown`).
-/

namespace BatchVerify

open BatchVerify.MemoryTree (parentOf)

namespace Disk

variable {disk start after : Disk} {additions : List Addition} {names init : List Bytes}
  {last : Bytes} {node found : Node} {dir path : Path}

/-! ## Additions on a disk -/

/-- The working directory is there, with nothing in it. -/
structure Fresh (disk : Disk) : Prop where
  here : disk.node? disk.workDir = some .directory
  empty : disk.names disk.workDir = []

/-- What is below the working directory is what additions put there. -/
structure Mirrors (disk : Disk) (additions : List Addition) : Prop where
  here : disk.under? [] = some .directory
  under? : ∀ {names}, names ≠ [] → AllNames names →
    disk.under? names = contentAt? additions (Path.ofNames names)

theorem Fresh.mirrors (h : disk.Fresh) : disk.Mirrors [] where
  here := h.here
  under? := by
    intro names hne hnames
    refine Option.eq_none_iff_forall_ne_some.mpr fun node hnode => ?_
    obtain ⟨first, rest, rfl⟩ := List.exists_cons_of_ne_nil hne
    have hfirst : (disk.node? (first :: disk.workDir)).isSome := by
      rw [Disk.under?, List.reverse_cons, List.append_assoc, List.singleton_append] at hnode
      by_cases hrest : rest = []
      · subst hrest
        exact Option.isSome_of_eq_some hnode
      · exact Option.isSome_of_eq_some (directory_of_node?_append hrest hnode)
    have hmem := mem_names_iff.mpr hfirst
    rw [h.empty] at hmem
    cases hmem

/-- The mirror after one more addition. -/
theorem Mirrors.puts {addition : Addition} (h : disk.Mirrors additions)
    (hcanonical : Canonical (additions ++ [addition])) (hnames : AllNames (init ++ [last]))
    (hpath : addition.path = Path.ofNames (init ++ [last]))
    (hputs : disk.Puts after (init ++ [last]) addition.node) : after.Mirrors (additions ++ [addition]) where
  here := by
    rw [hputs.under?, if_neg (by simp)]
    exact h.here
  under? := by
    intro names hne hall
    rw [hputs.under?, hcanonical.contentAt?_concat, h.under? hne hall, hpath]
    refine if_congr ⟨fun heq => heq ▸ rfl, fun heq => ?_⟩ rfl rfl
    exact Path.ofNames_injective hne hall (by simp) hnames heq

theorem Mirrors.add {addition : Addition} (h : disk.Mirrors additions)
    (hcanonical : Canonical (additions ++ [addition])) :
    ∃ after, disk.add addition = .ok after ∧ after.Mirrors (additions ++ [addition]) := by
  obtain ⟨init, last, hnames, hpath, hgrounded⟩ := hcanonical.last
  have hmem : addition ∈ additions ++ [addition] := List.mem_append_right _ List.mem_cons_self
  have hshort : (Path.ofNames (init ++ [last])).bytes.length < maxPathLength :=
    hpath ▸ (hcanonical.plain hmem).short
  have hparent : disk.under? init = some .directory := by
    by_cases hinit : init = []
    · rw [hinit]
      exact h.here
    · rw [h.under? hinit hnames.left]
      exact contentAt?_eq_directory_iff.mpr (hgrounded.resolve_left hinit)
  have hthere : disk.under? (init ++ [last]) = none ∨
      disk.under? (init ++ [last]) = some addition.node := by
    rw [h.under? (by simp) hnames, ← hpath]
    exact hcanonical.new_or_known
  cases addition with
  | directory path =>
    obtain rfl : path = Path.ofNames (init ++ [last]) := hpath
    obtain ⟨after, hadd, hputs⟩ := puts_add_directory hnames hshort hparent hthere
    exact ⟨after, hadd, h.puts hcanonical hnames rfl hputs⟩
  | file path =>
    obtain rfl : path = Path.ofNames (init ++ [last]) := hpath
    obtain ⟨after, hadd, hputs⟩ := puts_add_file hnames hshort hparent hthere
    exact ⟨after, hadd, h.puts hcanonical hnames rfl hputs⟩

/-- Canonical additions can all be made, one after the other. -/
theorem exists_mirror (hcanonical : Canonical additions) (hstart : start.Fresh) :
    ∃ disk, additions.foldlM add start = .ok disk ∧ disk.Mirrors additions := by
  induction additions using List.reverseRecOn with
  | nil => exact ⟨start, rfl, hstart.mirrors⟩
  | append_singleton additions addition ih =>
    obtain ⟨disk, hdisk, hmirrors⟩ := ih hcanonical.init
    obtain ⟨after, hafter, hmirrors'⟩ := hmirrors.add hcanonical
    refine ⟨after, ?_, hmirrors'⟩
    rw [List.foldlM_append, hdisk]
    show List.foldlM add disk [addition] = _
    rw [List.foldlM_cons, hafter]
    rfl

/-! ## What a mirror answers -/

/-- A path of names leads to what additions put there. -/
theorem Mirrors.lookUp (h : disk.Mirrors additions) (hcanonical : Canonical additions)
    (hnode : contentAt? additions path = some node) : disk.lookUp path = .ok node := by
  have hplain := hcanonical.contentAt?_plain hnode
  obtain ⟨names, hne, hnames, rfl⟩ := hplain.exists_names
  refine lookUp_ofNames hne hnames hplain.short ((h.under? hne hnames).trans hnode) ?_
  rintro target rfl
  exact contentAt?_ne_link target hnode

/-- What the check of a root answers for what was added. -/
theorem Mirrors.checkRoot (h : disk.Mirrors additions) (hcanonical : Canonical additions)
    (hnode : contentAt? additions path = some node) :
    disk.checkRoot path =
      if node = .directory then .ok () else .error (.rootNotDirectory path) := by
  rw [Disk.checkRoot, h.lookUp hcanonical hnode]
  cases node with
  | directory => rfl
  | file file => rfl
  | link target => rfl

/-- The listing of a directory goes through its names in order. -/
theorem list_ofNames (hne : names ≠ []) (hnames : AllNames names)
    (hshort : (Path.ofNames names).bytes.length < maxPathLength)
    (hdir : disk.under? names = some .directory) (keep : Node → Bool) :
    disk.list keep (Path.ofNames names) =
      .ok ((entryPaths (Path.ofNames names)
        ((disk.names (names.reverse ++ disk.workDir)).mergeSort nameLe)).foldr (disk.classify keep)
          ⟨[], []⟩) := by
  have hentries : disk.entryNames (Path.ofNames names) =
      .ok (disk.names (names.reverse ++ disk.workDir)) := by
    rw [entryNames, find_ofNames hne hnames hshort hdir Node.directory_ne_link]
    exact if_pos hdir
  rw [list, sortedNames_eq, hentries]
  rfl

/-- An entry is kept if it is of the right kind and its path is not too long. -/
theorem keeps_ofNames_iff (hne : names ≠ []) (hnames : AllNames names)
    (hfound : disk.under? names = some found) (hlink : ∀ target, found ≠ .link target)
    (keep : Node → Bool) :
    disk.keeps keep (Path.ofNames names) = true ↔
      (Path.ofNames names).bytes.length < maxPathLength ∧ keep found = true := by
  unfold keeps
  by_cases hshort : (Path.ofNames names).bytes.length < maxPathLength
  · rw [lookUp_ofNames hne hnames hshort hfound hlink]
    exact (and_iff_right hshort).symm
  · obtain ⟨cause, hcause⟩ := @lookUp_of_long disk _ hshort
    rw [hcause]
    exact iff_of_false nofun fun hkept => hshort hkept.1

theorem skipped_foldr_classify {keep : Node → Bool} {entries : List Path}
    (h : ∀ entry ∈ entries, ∃ node, disk.lookUp entry = .ok node) :
    (entries.foldr (disk.classify keep) ⟨[], []⟩).skipped = [] := by
  induction entries with
  | nil => rfl
  | cons entry entries ih =>
    obtain ⟨⟨node, hnode⟩, hrest⟩ := List.forall_mem_cons.mp h
    rw [List.foldr_cons, classify, hnode]
    dsimp only
    split_ifs
    · exact ih hrest
    · exact ih hrest

/-- There are no links below the working directory of a mirror, however it grows. -/
theorem Mirrors.not_link (h : disk.Mirrors additions) (hgrows : disk.Grows after) (hne : names ≠ [])
    (hnames : AllNames names) (hfound : after.under? names = some found) (target : Path) :
    found ≠ .link target := by
  rintro rfl
  rcases hgrows.under?_cases names with heq | ⟨-, hdir⟩
  · rw [heq, h.under? hne hnames] at hfound
    exact contentAt?_ne_link target hfound
  · rw [hdir] at hfound
    cases hfound

/-- What a listing keeps on a disk that has grown, if `keep` accepts just what additions put. -/
theorem Mirrors.list_contents (h : disk.Mirrors additions) (hcanonical : Canonical additions)
    (hgrows : disk.Grows after) (hdir : .directory dir ∈ additions) {keep : Node → Bool}
    (hkeep : ∀ names, names ≠ [] → AllNames names →
      ((∃ found, after.under? names = some found ∧ keep found = true) ↔
        contentAt? additions (Path.ofNames names) = some node)) :
    ∃ listing, after.list keep dir = .ok listing ∧ dir.Contents additions node listing.kept := by
  have hplain : dir.Plain := hcanonical.plain hdir
  obtain ⟨names, hne, hnames, rfl⟩ := hplain.exists_names
  have hthere : after.under? names = some .directory :=
    hgrows.under? ((h.under? hne hnames).trans (contentAt?_eq_directory_iff.mpr hdir))
  have hlist := list_ofNames hne hnames hplain.short hthere keep
  refine ⟨_, hlist, entries_of_list hlist, fun {path} => ?_⟩
  rw [kept_foldr_classify, List.mem_filter, entryPaths, List.mem_map]
  simp only [List.mem_mergeSort, mem_names_iff]
  constructor
  · rintro ⟨⟨name, hname, rfl⟩, hkept⟩
    obtain ⟨found, hfound⟩ := Option.isSome_iff_exists.mp hname
    have hall : AllNames (names ++ [name]) := hnames.concat (directory_of_node?_cons hfound).1
    rw [← under?_concat] at hfound
    rw [Path.join_ofNames hne hall] at hkept ⊢
    refine ⟨parentOf_ofNames hall, (hkeep _ (by simp) hall).mp ⟨found, hfound, ?_⟩⟩
    have hlink := h.not_link hgrows (by simp) hall hfound
    exact ((keeps_ofNames_iff (by simp) hall hfound hlink keep).mp hkept).2
  · rintro ⟨hparent, hnode⟩
    have hpath := hcanonical.contentAt?_plain hnode
    obtain ⟨init, last, hall, rfl⟩ := hpath.exists_last
    rw [parentOf_ofNames hall] at hparent
    have hinit : init = names := by
      refine Path.ofNames_injective ?_ hall.left hne hnames hparent
      rintro rfl
      exact hplain.not_same_empty (hparent ▸ Path.Same.refl _)
    subst hinit
    obtain ⟨found, hfound, hkept⟩ := (hkeep _ (by simp) hall).mpr hnode
    have hlink := h.not_link hgrows (by simp) hall hfound
    refine ⟨⟨last, ?_, Path.join_ofNames hne hall⟩, ?_⟩
    · rw [← under?_concat, hfound]
      rfl
    · exact (keeps_ofNames_iff (by simp) hall hfound hlink keep).mpr ⟨hpath.short, hkept⟩

/-- A listing of a mirror itself passes nothing over. -/
theorem Mirrors.skipped_eq_nil (h : disk.Mirrors additions) (hcanonical : Canonical additions)
    (hdir : .directory dir ∈ additions) {keep : Node → Bool} {listing : Listing}
    (hlist : disk.list keep dir = .ok listing) : listing.skipped = [] := by
  have hplain : dir.Plain := hcanonical.plain hdir
  obtain ⟨names, hne, hnames, rfl⟩ := hplain.exists_names
  have hthere : disk.under? names = some .directory :=
    (h.under? hne hnames).trans (contentAt?_eq_directory_iff.mpr hdir)
  rw [list_ofNames hne hnames hplain.short hthere] at hlist
  cases hlist
  refine skipped_foldr_classify fun entry hentry => ?_
  obtain ⟨name, hname, rfl⟩ := List.mem_map.mp hentry
  obtain ⟨found, hfound⟩ :=
    Option.isSome_iff_exists.mp (mem_names_iff.mp (List.mem_mergeSort.mp hname))
  have hall : AllNames (names ++ [name]) := hnames.concat (directory_of_node?_cons hfound).1
  rw [← under?_concat, h.under? (by simp) hall] at hfound
  exact ⟨found, Path.join_ofNames hne hall ▸ h.lookUp hcanonical hfound⟩

/-- The regular files are those that additions put, however the disk grows. -/
theorem Mirrors.file_iff (h : disk.Mirrors additions) (hgrows : disk.Grows after) (hne : names ≠ [])
    (hnames : AllNames names) :
    (∃ found, after.under? names = some found ∧ (found matches .file _) = true) ↔
      contentAt? additions (Path.ofNames names) = some (.file {}) := by
  rw [← h.under? hne hnames]
  constructor
  · rintro ⟨found, hfound, hfile⟩
    rcases hgrows.under?_cases names with heq | ⟨-, hdir⟩
    · rw [heq] at hfound
      obtain ⟨addition, -, -, rfl⟩ := contentAt?_eq_some ((h.under? hne hnames).symm.trans hfound)
      cases addition with
      | directory path => cases hfile
      | file path => exact hfound
    · rw [hdir] at hfound
      cases hfound
      cases hfile
  · exact fun hfound => ⟨.file {}, hgrows.under? hfound, rfl⟩

end Disk

/-! ## Twins -/

/-- A tree in memory and a disk after the same additions. -/
structure Twins (additions : List Addition) (tree : MemoryTree) (disk : Disk) : Prop where
  canonical : Canonical additions
  memory : MemoryTree.Reachable additions tree
  mirror : disk.Mirrors additions

namespace Twins

variable {additions : List Addition} {tree : MemoryTree} {disk after : Disk} {dir : Path}

theorem checkRoot_eq (h : Twins additions tree disk) {addition : Addition}
    (hmem : addition ∈ additions) :
    tree.checkRoot addition.path = disk.checkRoot addition.path := by
  have hnode := h.canonical.contentAt?_of_mem hmem
  rw [h.memory.checkRoot_eq h.canonical hnode, h.mirror.checkRoot h.canonical hnode]

theorem listGroups_eq (h : Twins additions tree disk) (hdir : .directory dir ∈ additions) :
    tree.listGroups dir = disk.listGroups dir := by
  obtain ⟨kept, hkept, hcontents⟩ := h.memory.listGroups_contents h.canonical hdir
  have hdisk : ∃ listing, disk.listGroups dir = .ok listing ∧
      dir.Contents additions .directory listing.kept := by
    refine h.mirror.list_contents h.canonical (.refl disk) hdir fun names hne hnames => ?_
    simp [h.mirror.under? hne hnames]
  obtain ⟨⟨kept', skipped⟩, hlist, hcontents'⟩ := hdisk
  obtain rfl : skipped = [] := h.mirror.skipped_eq_nil h.canonical hdir hlist
  obtain rfl : kept = kept' := h.canonical.contents_eq hcontents hcontents'
  exact hkept.trans hlist.symm

/-- What is made on the disk later does not change the files in a directory, though some of it may
have to be passed over. -/
theorem listFiles_grown (h : Twins additions tree disk) (hgrows : disk.Grows after)
    (hdir : .directory dir ∈ additions) :
    ∃ listing, after.listFiles dir = .ok listing ∧ tree.listFiles dir = .ok ⟨listing.kept, []⟩ := by
  obtain ⟨kept, hkept, hcontents⟩ := h.memory.listFiles_contents h.canonical hdir
  obtain ⟨listing, hlist, hcontents'⟩ :=
    h.mirror.list_contents h.canonical hgrows hdir fun names hne hnames =>
      h.mirror.file_iff hgrows hne hnames
  exact ⟨listing, hlist, h.canonical.contents_eq hcontents hcontents' ▸ hkept⟩

theorem listFiles_eq (h : Twins additions tree disk) (hdir : .directory dir ∈ additions) :
    tree.listFiles dir = disk.listFiles dir := by
  obtain ⟨⟨kept, skipped⟩, hlist, hkept⟩ := h.listFiles_grown (.refl disk) hdir
  obtain rfl : skipped = [] := h.mirror.skipped_eq_nil h.canonical hdir hlist
  exact hkept.trans hlist.symm

end Twins

end BatchVerify
