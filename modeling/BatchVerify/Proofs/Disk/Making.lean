import BatchVerify.Proofs.Disk.Route

/-!
# Directories that are made

Making a directory with all it needs above it leaves a directory where its path leads
(`Disk.isDirectory_makeDirectories`), and whatever is new is a directory that its path or one above it
leads to (`Disk.exists_ancestor_of_new`). A directory that is there is left as it is
(`Disk.makeDirectories_of_isDirectory`).
-/

namespace BatchVerify

/-! ## Separators at the end -/

theorem dropTrailing_cons (piece : Bytes) (rest : List Bytes) :
    dropTrailing (piece :: rest) =
      if piece = [] ∧ dropTrailing rest = [] then [] else piece :: dropTrailing rest := by
  unfold dropTrailing
  rw [List.reverse_cons, List.dropWhile_append]
  by_cases hrest : rest.reverse.dropWhile (fun piece => decide (piece = [])) = []
  · by_cases hpiece : piece = []
    · simp [hrest, hpiece]
    · simp [hrest, hpiece]
  · simp [hrest]

theorem dropTrailing_append {pieces rest : List Bytes} (h : dropTrailing rest ≠ []) :
    dropTrailing (pieces ++ rest) = pieces ++ dropTrailing rest := by
  induction pieces with
  | nil => rfl
  | cons piece pieces ih =>
    rw [List.cons_append, dropTrailing_cons, ih, if_neg (by simp [h]), List.cons_append]

/-- What is dropped are the empty pieces that separators at the end leave. -/
theorem exists_trailing (pieces : List Bytes) :
    ∃ trailing, pieces = dropTrailing pieces ++ trailing ∧ ∀ piece ∈ trailing, piece = [] := by
  induction pieces with
  | nil => exact ⟨[], rfl, by simp⟩
  | cons piece rest ih =>
    obtain ⟨trailing, hrest, hempty⟩ := ih
    rw [dropTrailing_cons]
    split_ifs with hidle
    · refine ⟨piece :: rest, rfl, List.forall_mem_cons.mpr ⟨hidle.1, ?_⟩⟩
      rw [hrest, hidle.2]
      exact hempty
    · exact ⟨trailing, by rw [List.cons_append, ← hrest], hempty⟩

namespace Disk

variable {disk made : Disk} {aim : Aim} {links : Nat} {here place : Location} {pieces rest : List Bytes}
  {path : Path} {paths above : List Path}

theorem route_trailing (hdir : disk.node? here = some .directory) (h : ∀ piece ∈ rest, piece = []) :
    disk.Route aim links here rest (.place here) := by
  induction rest with
  | nil => exact .done
  | cons piece rest ih =>
    obtain ⟨hpiece, hrest⟩ := List.forall_mem_cons.mp h
    exact .idle hdir (Or.inl hpiece) (ih hrest)

/-- Where a path leads somewhere, there is something of its name. -/
theorem Route.named (h : disk.Route .target links here pieces (.place place)) :
    ∃ named, disk.Route .name links here (dropTrailing pieces) (.place named) := by
  generalize hreached : Reached.place place = reached at h
  induction h with
  | done => exact ⟨_, .done⟩
  | idle hdir hpiece _ ih =>
    obtain ⟨named, hnamed⟩ := ih hreached
    rw [dropTrailing_cons]
    split_ifs
    · exact ⟨_, .done⟩
    · exact ⟨named, .idle hdir hpiece hnamed⟩
  | up hdir _ ih =>
    obtain ⟨named, hnamed⟩ := ih hreached
    rw [dropTrailing_cons, if_neg (by simp)]
    exact ⟨named, .up hdir hnamed⟩
  | free => cases hreached
  | stop _ _ haim => cases haim
  | @follow _ _ piece rest _ _ hasks _ hnode _ _ ih =>
    obtain ⟨named, hnamed⟩ := ih hreached
    rw [dropTrailing_cons, if_neg (fun hidle => hasks.not_idle (Or.inl hidle.1))]
    -- a link with nothing but separators after it is what has the name
    by_cases hrest : dropTrailing rest = []
    · rw [hrest]
      exact ⟨_, .stop hasks hnode rfl⟩
    · rw [dropTrailing_append hrest] at hnamed
      exact ⟨named, .follow hasks nofun hnode (fun hpast => hrest hpast.1) hnamed⟩
  | enter hasks _ hnode hlink _ ih =>
    obtain ⟨named, hnamed⟩ := ih hreached
    rw [dropTrailing_cons, if_neg (fun hidle => hasks.not_idle (Or.inl hidle.1))]
    exact ⟨named, .enter hasks nofun hnode hlink hnamed⟩

/-! ## One directory -/

theorem makeDirectory_eq_ok_iff : disk.makeDirectory path = .ok made ↔
    ∃ dir name, disk.reachName path = .ok (.free dir name) ∧
      disk.insert? (name :: dir) .directory = some made := by
  unfold makeDirectory
  cases disk.reachName path with
  | error cause => simp [bind, Except.bind]
  | ok reached =>
    cases reached with
    | place place => simp [bind, Except.bind]
    | free dir name =>
      simp only [bind, Except.bind, Except.ok.injEq, Reached.free.injEq]
      constructor
      · intro h
        refine ⟨dir, name, ⟨rfl, rfl⟩, ?_⟩
        cases hinsert : disk.insert? (name :: dir) .directory with
        | none =>
          rw [hinsert] at h
          cases h
        | some after =>
          rw [hinsert] at h
          cases h
          rfl
      · rintro ⟨_, _, ⟨rfl, rfl⟩, hinsert⟩
        rw [hinsert]

/-- The path of a directory that was made leads to it. -/
theorem find_makeDirectory (h : disk.makeDirectory path = .ok made) :
    ∃ place, disk.insert? place .directory = some made ∧ made.find path = .ok place := by
  obtain ⟨dir, name, hreach, hinsert⟩ := makeDirectory_eq_ok_iff.mp h
  refine ⟨name :: dir, hinsert, ?_⟩
  have hthere : made.node? (name :: dir) = some .directory := by
    rw [node?_of_insert? hinsert, if_pos rfl]
  have hkeeps := (grows_of_insert? hinsert).keeps
  unfold reachName at hreach
  cases hpieces : path.pieces with
  | error cause =>
    rw [hpieces] at hreach
    cases hreach
  | ok pieces =>
    rw [hpieces] at hreach
    obtain ⟨trailing, hsplit, hempty⟩ := exists_trailing pieces
    have hroute := (route_of_walk hreach).taken hkeeps hthere Node.directory_ne_link
      fun _ => route_trailing hthere hempty
    rw [← hsplit] at hroute
    refine find_eq_ok_iff.mpr ⟨pieces, hpieces, ?_⟩
    rw [hkeeps.start_eq]
    exact hroute

theorem isDirectory_makeDirectory (h : disk.makeDirectory path = .ok made) :
    made.isDirectory path = true := by
  obtain ⟨place, hinsert, hfind⟩ := find_makeDirectory h
  refine isDirectory_iff.mpr (lookUp_eq_ok_iff.mpr ⟨place, hfind, ?_⟩)
  rw [node?_of_insert? hinsert, if_pos rfl]

/-- What is new once a directory was made is where its path leads. -/
theorem find_of_new (h : disk.makeDirectory path = .ok made) (hfree : disk.node? place = none)
    (hthere : made.node? place ≠ none) : made.find path = .ok place := by
  obtain ⟨found, hinsert, hfind⟩ := find_makeDirectory h
  rw [node?_of_insert? hinsert] at hthere
  by_cases hplace : place = found
  · rw [hplace]
    exact hfind
  · rw [if_neg hplace] at hthere
    exact absurd hfree hthere

/-- There is no making what is there. -/
theorem makeDirectory_of_isDirectory (h : disk.isDirectory path = true) :
    disk.makeDirectory path = .error (.os .exists) := by
  obtain ⟨place, hfind, -⟩ := lookUp_eq_ok_iff.mp (isDirectory_iff.mp h)
  obtain ⟨pieces, hpieces, hroute⟩ := find_eq_ok_iff.mp hfind
  obtain ⟨named, hnamed⟩ := hroute.named
  have hreach : disk.reachName path = .ok (.place named) := by
    rw [reachName, hpieces]
    exact hnamed.walk_eq
  rw [makeDirectory, hreach]
  rfl

/-! ## A directory with all it needs above it -/

/-- The path of a directory above another has the first of its components. -/
theorem components_prefix_of_mem_upward {n : Nat} {above : Path} (h : above ∈ path.upward n) :
    above.components <+: path.components := by
  induction n generalizing path with
  | zero =>
    obtain rfl : above = path := List.mem_singleton.mp h
    exact List.prefix_rfl
  | succ n ih =>
    rw [Path.upward] at h
    cases hparent : path.parent? with
    | none =>
      rw [hparent] at h
      obtain rfl : above = path := List.mem_singleton.mp h
      exact List.prefix_rfl
    | some parent =>
      rw [hparent] at h
      rcases List.mem_cons.mp h with rfl | h
      · exact List.prefix_rfl
      · have hdropped := ih h
        rw [Path.components_of_parent? hparent] at hdropped
        exact hdropped.trans (List.dropLast_prefix _)

theorem isDirectory_of_settled {cause : SystemError}
    (h : makeChain.settled path cause disk = (.ok (), made)) : made.isDirectory path = true := by
  unfold makeChain.settled at h
  split_ifs at h with hdir
  · cases h
    exact hdir
  · cases h

theorem isDirectory_settle (h : makeChain.settle path disk = (.ok (), made)) :
    made.isDirectory path = true := by
  unfold makeChain.settle at h
  cases hmake : disk.makeDirectory path with
  | ok there =>
    rw [hmake] at h
    cases h
    exact isDirectory_makeDirectory hmake
  | error cause =>
    rw [hmake] at h
    exact isDirectory_of_settled h

theorem find_of_new_settle (hfree : disk.node? place = none)
    (hthere : (makeChain.settle path disk).2.node? place ≠ none) :
    (makeChain.settle path disk).2.find path = .ok place := by
  unfold makeChain.settle at hthere ⊢
  cases hmake : disk.makeDirectory path with
  | ok there =>
    rw [hmake] at hthere
    exact find_of_new hmake hfree hthere
  | error cause =>
    rw [hmake] at hthere
    exact absurd hfree hthere

/-- A chain that was made ends at a directory. -/
theorem isDirectory_makeChain {above : List Path} (hbytes : path.bytes ≠ [])
    (h : makeChain (path :: above) disk = (.ok (), made)) : made.isDirectory path = true := by
  rw [makeChain, if_neg hbytes] at h
  cases hmake : disk.makeDirectory path with
  | ok there =>
    rw [hmake] at h
    cases h
    exact isDirectory_makeDirectory hmake
  | error cause =>
    rw [hmake] at h
    dsimp only at h
    split_ifs at h with hmissing
    · rcases habove : makeChain above disk with ⟨_ | _, below⟩
      · rw [habove] at h
        cases h
      · rw [habove] at h
        exact isDirectory_settle h
    · exact isDirectory_of_settled h

/-- What is new once a chain was made, or was made in part, is where one of its paths leads. -/
theorem exists_of_new_makeChain (paths : List Path) (disk : Disk) (hfree : disk.node? place = none)
    (hthere : (makeChain paths disk).2.node? place ≠ none) :
    ∃ path ∈ paths, (makeChain paths disk).2.find path = .ok place := by
  induction paths with
  | nil => exact absurd hfree hthere
  | cons path above ih =>
    rw [makeChain] at hthere ⊢
    by_cases hbytes : path.bytes = []
    · rw [if_pos hbytes] at hthere
      exact absurd hfree hthere
    rw [if_neg hbytes] at hthere ⊢
    cases hmake : disk.makeDirectory path with
    | ok there =>
      rw [hmake] at hthere
      exact ⟨path, List.mem_cons_self, find_of_new hmake hfree hthere⟩
    | error cause =>
      rw [hmake] at hthere
      dsimp only at hthere ⊢
      by_cases hmissing : cause.kind = .notFound
      swap
      · rw [if_neg hmissing] at hthere
        exact absurd hfree hthere
      rw [if_pos hmissing] at hthere ⊢
      rcases habove : makeChain above disk with ⟨_ | _, below⟩ <;> rw [habove] at hthere ih
      · obtain ⟨above', hmem, hfind⟩ := ih hthere
        exact ⟨above', List.mem_cons_of_mem _ hmem, hfind⟩
      · -- a part that was missing before is there now: it was made above the path, or at its end
        dsimp only at hthere ih ⊢
        by_cases hbelow : below.node? place = none
        · exact ⟨path, List.mem_cons_self, find_of_new_settle hbelow hthere⟩
        · obtain ⟨above', hmem, hfind⟩ := ih hbelow
          exact ⟨above', List.mem_cons_of_mem _ hmem, find_kept (grows_settle path below).keeps hfind⟩

/-- The path of a directory that was made with all it needs leads to a directory. -/
theorem isDirectory_makeDirectories (hbytes : path.bytes ≠ [])
    (h : disk.makeDirectories path = (.ok (), made)) : made.isDirectory path = true := by
  obtain ⟨above, habove⟩ := exists_ancestors path
  rw [makeDirectories, habove] at h
  exact isDirectory_makeChain hbytes h

/-- What is new once a directory was made with all it needs, or was made in part, is where the path or
one above it leads. -/
theorem exists_ancestor_of_new (hfree : disk.node? place = none)
    (hthere : (disk.makeDirectories path).2.node? place ≠ none) :
    ∃ above ∈ path.ancestors, (disk.makeDirectories path).2.find above = .ok place :=
  exists_of_new_makeChain path.ancestors disk hfree hthere

/-- A directory that is there, by whatever path, is left as it is. -/
theorem makeDirectories_of_isDirectory (h : disk.isDirectory path = true) :
    disk.makeDirectories path = (.ok (), disk) := by
  obtain ⟨above, habove⟩ := exists_ancestors path
  rw [makeDirectories, habove, makeChain]
  split_ifs with hbytes
  · rfl
  · rw [makeDirectory_of_isDirectory h]
    dsimp only
    rw [if_neg (by decide), makeChain.settled, if_pos h]

end Disk

end BatchVerify
