import BatchVerify.Disk.Change
import BatchVerify.Proofs.Disk.Route

/-!
# Files that are written

A file that was written is where its path leads and has the content that it was given, and all else on
the disk is as it was (`Disk.write_puts`). So what was written is what is read
(`Disk.read_of_write`).
-/

namespace BatchVerify

namespace Disk

variable {disk after : Disk} {links : Nat} {here place : Location} {pieces : List Bytes}
  {reached : Reached} {node : Node} {path : Path} {content : Bytes}

/-! ## Disks with a file more, or another one -/

theorem keeps_of_insert? (h : disk.insert? place node = some after) : disk.Keeps after where
  workDir := workDir_of_insert? h
  node? := by
    intro other found hfound
    refine ⟨found, ?_, rfl⟩
    rw [node?_of_insert? h, if_neg, hfound]
    rintro rfl
    rw [free_of_insert? h] at hfound
    cases hfound

theorem keeps_setFile (disk : Disk) (place : Location) (file : File) :
    disk.Keeps (disk.setFile place file) where
  workDir := rfl
  node? := by
    intro other found hfound
    rw [node?_setFile, hfound]
    cases found with
    | directory => exact ⟨_, rfl, rfl⟩
    | file old => exact ⟨_, rfl, rfl⟩
    | link target => exact ⟨_, rfl, rfl⟩

theorem node?_setFile_of_ne (disk : Disk) (file : File) {other : Location} (h : other ≠ place) :
    (disk.setFile place file).node? other = disk.node? other := by
  rw [node?_setFile]
  cases disk.node? other with
  | none => rfl
  | some found =>
    cases found with
    | directory => rfl
    | file old =>
      show some (Node.file (if other = place then file else old)) = _
      rw [if_neg h]
    | link target => rfl

/-! ## Walks for a file -/

/-- A walk for a file ends where one to the target of its path does. -/
theorem Route.to_target (h : disk.Route .file links here pieces reached) :
    disk.Route .target links here pieces reached := by
  induction h with
  | done => exact .done
  | idle hdir hpiece _ ih => exact .idle hdir hpiece ih
  | up hdir _ ih => exact .up hdir ih
  | free hasks hnode => exact .free hasks hnode
  | stop _ _ haim => cases haim
  | follow hasks _ hnode _ _ ih =>
    exact .follow hasks (allows_target _) hnode (fun hpast => nomatch hpast.2) ih
  | enter hasks _ hnode hlink _ ih => exact .enter hasks (allows_target _) hnode hlink ih

theorem reachFile_eq_ok_iff : disk.reachFile path = .ok reached ↔
    ∃ pieces, path.pieces = .ok pieces ∧
      disk.Route .file maxLinks (disk.start path) pieces reached := by
  unfold reachFile
  cases path.pieces with
  | error cause => simp [bind, Except.bind]
  | ok pieces => simp only [bind, Except.bind, Except.ok.injEq, exists_eq_left', ← walk_eq_ok_iff]

/-- What a file is written to is what its path leads to. -/
theorem find_of_reachFile (h : disk.reachFile path = .ok (.place place)) :
    disk.find path = .ok place := by
  obtain ⟨pieces, hpieces, hroute⟩ := reachFile_eq_ok_iff.mp h
  exact find_eq_ok_iff.mpr ⟨pieces, hpieces, hroute.to_target⟩

/-- The path of a file that was made leads to it. -/
theorem find_of_insert? {dir : Location} {name : Bytes}
    (hreach : disk.reachFile path = .ok (.free dir name))
    (h : disk.insert? (name :: dir) node = some after) (hlink : ∀ target, node ≠ .link target) :
    after.find path = .ok (name :: dir) := by
  obtain ⟨pieces, hpieces, hroute⟩ := reachFile_eq_ok_iff.mp hreach
  have hkeeps : disk.Keeps after := keeps_of_insert? h
  have hnode : after.node? (name :: dir) = some node := by rw [node?_of_insert? h, if_pos rfl]
  have htaken := hroute.taken hkeeps hnode hlink fun _ => .done
  rw [List.append_nil, ← hkeeps.start_eq] at htaken
  exact find_eq_ok_iff.mpr ⟨pieces, hpieces, htaken⟩

/-! ## What is written -/

/-- A file is written to one that is there, or is made at a free name. -/
theorem write_cases (h : disk.write path content = .ok after) :
    (∃ place old, disk.reachFile path = .ok (.place place) ∧
      disk.node? place = some (.file old) ∧
      after = disk.setFile place { content, program := old.program.map fun _ => .unreadable }) ∨
    (∃ dir name, disk.reachFile path = .ok (.free dir name) ∧
      disk.insert? (name :: dir) (.file { content }) = some after) := by
  unfold write at h
  cases hreach : disk.reachFile path with
  | error cause =>
    rw [hreach] at h
    cases h
  | ok reached =>
    rw [hreach] at h
    cases reached with
    | place place =>
      simp only [bind, Except.bind] at h
      split at h
      · next old hnode =>
        cases h
        exact Or.inl ⟨place, old, rfl, hnode, rfl⟩
      · cases h
    | free dir name =>
      simp only [bind, Except.bind] at h
      split at h
      · next made hinsert =>
        cases h
        exact Or.inr ⟨dir, name, rfl, hinsert⟩
      · cases h

/-- What is written is in a regular file where the path leads, and all else is as it was. -/
theorem write_puts (h : disk.write path content = .ok after) :
    ∃ place file, after.find path = .ok place ∧ after.node? place = some (.file file) ∧
      file.content = content ∧ ∀ other, other ≠ place → after.node? other = disk.node? other := by
  rcases write_cases h with ⟨place, old, hreach, hold, rfl⟩ | ⟨dir, name, hreach, hinsert⟩
  · let file : File := { content, program := old.program.map fun _ => .unreadable }
    refine ⟨place, file, ?_, ?_, rfl, fun other hother => node?_setFile_of_ne disk file hother⟩
    · exact find_kept (keeps_setFile disk place file) (find_of_reachFile hreach)
    · rw [node?_setFile, hold]
      show some (Node.file (if place = place then file else old)) = _
      rw [if_pos rfl]
  · refine ⟨name :: dir, { content }, ?_, ?_, rfl, fun other hother => ?_⟩
    · exact find_of_insert? hreach hinsert (Node.file_ne_link _)
    · rw [node?_of_insert? hinsert, if_pos rfl]
    · rw [node?_of_insert? hinsert, if_neg hother]

/-- What was written is what is read. -/
theorem read_of_write (h : disk.write path content = .ok after) : after.read path = .bytes content := by
  obtain ⟨place, file, hfind, hnode, rfl, -⟩ := write_puts h
  rw [read, lookUp_eq_ok_iff.mpr ⟨place, hfind, hnode⟩]

end Disk

end BatchVerify
