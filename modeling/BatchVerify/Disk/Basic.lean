import BatchVerify.Disk.Program

/-!
# Disks

A disk holds directories, regular files and symbolic links. Each is at a place, which is told by
the names that lead to it from the root; the root is a directory by itself. No two are at one
place, and each lies in a directory. `insert?`, `setFile` and `removeAll` keep it so.
-/

namespace BatchVerify

/-- The names that lead to a place, the innermost first; the root has none. -/
abbrev Location := List Bytes

/-- A regular file. -/
structure File where
  content : Bytes := []
  /-- What the file does when it is run, if it is marked as a program. -/
  program : Option Program := none
  deriving DecidableEq, Repr

/-- What can be at a place. -/
inductive Node where
  | directory
  | file (file : File)
  /-- A symbolic link to the path that it holds. -/
  | link (target : Path)
  deriving DecidableEq, Repr

/-- The longest name. -/
def maxNameLength : Nat := 255

/-- A name that something on a disk can have. -/
def IsName (name : Bytes) : Prop :=
  name ≠ [] ∧ name ≠ [Bytes.dot] ∧ name ≠ [Bytes.dot, Bytes.dot] ∧ Bytes.slash ∉ name ∧
    Bytes.nul ∉ name ∧ name.length ≤ maxNameLength

instance (name : Bytes) : Decidable (IsName name) := by unfold IsName; infer_instance

/-- A place with a proper name in a directory. -/
def Rooted (nodes : List (Location × Node)) : Location → Prop
  | [] => False
  | name :: parent => IsName name ∧ (parent = [] ∨ (parent, Node.directory) ∈ nodes)

instance (nodes : List (Location × Node)) (place : Location) : Decidable (Rooted nodes place) := by
  cases place <;> unfold Rooted <;> infer_instance

/-- A place stays in a directory while more is added. -/
theorem Rooted.mono {nodes more : List (Location × Node)} {place : Location}
    (h : Rooted nodes place) (sub : ∀ entry ∈ nodes, entry ∈ more) : Rooted more place := by
  cases place with
  | nil => exact h
  | cons name parent => exact ⟨h.1, h.2.imp_right (sub _)⟩

/-- A disk and the directory where relative paths start. -/
structure Disk where
  /-- All but the root, in no particular order. -/
  nodes : List (Location × Node) := []
  workDir : Location := []
  distinct : (nodes.map (·.1)).Nodup := by decide
  rooted : ∀ entry ∈ nodes, Rooted nodes entry.1 := by decide
  deriving Repr

/-- A regular file in the place of another; what is no file stays. -/
def File.replace (place : Location) (file : File) : Location × Node → Location × Node
  | (here, .file old) => (here, .file (if here = place then file else old))
  | entry => entry

theorem File.replace_fst (place : Location) (file : File) (entry : Location × Node) :
    (File.replace place file entry).1 = entry.1 := by
  obtain ⟨here, node⟩ := entry
  cases node <;> rfl

namespace Disk

/-- What is at a place. -/
def node? (disk : Disk) (place : Location) : Option Node :=
  if place = [] then some .directory else disk.nodes.lookup place

/-- The names in a directory, in no particular order. -/
def names (disk : Disk) (place : Location) : List Bytes :=
  disk.nodes.filterMap fun
    | (name :: parent, _) => if parent = place then some name else none
    | ([], _) => none

/-- Puts something at a place, if nothing is there and the place is in a directory. -/
def insert? (disk : Disk) (place : Location) (node : Node) : Option Disk :=
  if h : place ∉ disk.nodes.map (·.1) ∧ Rooted disk.nodes place then
    some
      { disk with
        nodes := (place, node) :: disk.nodes
        distinct := List.nodup_cons.mpr ⟨h.1, disk.distinct⟩
        rooted := by
          intro entry mem
          have sub : ∀ e ∈ disk.nodes, e ∈ (place, node) :: disk.nodes :=
            fun e he => List.mem_cons_of_mem _ he
          rcases List.mem_cons.mp mem with rfl | mem
          · exact Rooted.mono h.2 sub
          · exact Rooted.mono (disk.rooted entry mem) sub }
  else none

/-- Something put at a place is there, and all else is as it was. -/
theorem node?_of_insert? {disk after : Disk} {place : Location} {node : Node}
    (h : disk.insert? place node = some after) (other : Location) :
    after.node? other = if other = place then some node else disk.node? other := by
  simp only [insert?] at h
  split at h
  · next free =>
    cases h
    have rooted : place ≠ [] := by rintro rfl; exact free.2
    by_cases eq : other = place
    · subst eq; simp [node?, rooted]
    · have : (other == place) = false := by simpa using eq
      simp [node?, List.lookup_cons, eq, this]
  · cases h

/-- Changes the regular file at a place. -/
def setFile (disk : Disk) (place : Location) (file : File) : Disk :=
  { disk with
    nodes := disk.nodes.map (File.replace place file)
    distinct := by
      have same : (fun entry => (File.replace place file entry).1) = (·.1) :=
        funext (File.replace_fst place file)
      rw [List.map_map, Function.comp_def, same]
      exact disk.distinct
    rooted := by
      intro entry mapped
      obtain ⟨old, mem, rfl⟩ := List.mem_map.mp mapped
      rw [File.replace_fst]
      have := disk.rooted old mem
      cases h : old.1 with
      | nil => rw [h] at this; exact this
      | cons name parent =>
        rw [h] at this
        exact ⟨this.1, this.2.imp_right fun dir => List.mem_map.mpr ⟨_, dir, rfl⟩⟩ }

/-- A file that is changed has the new content, and all else is as it was. -/
theorem node?_setFile (disk : Disk) (place : Location) (file : File) (other : Location) :
    (disk.setFile place file).node? other =
      (disk.node? other).map fun
        | .file old => .file (if other = place then file else old)
        | node => node := by
  by_cases root : other = []
  · simp [node?, root]
  · simp only [node?, root, if_false, setFile]
    generalize disk.nodes = nodes
    induction nodes with
    | nil => rfl
    | cons entry rest ih =>
      obtain ⟨here, node⟩ := entry
      by_cases eq : other = here
      · subst eq; cases node <;> simp [File.replace]
      · have ne : (other == here) = false := by simpa using eq
        cases node <;> simpa [File.replace, List.lookup_cons, ne] using ih

/-- Removes what is at a place and all that lies below it. -/
def removeAll (disk : Disk) (place : Location) : Disk :=
  { disk with
    nodes := disk.nodes.filter fun entry => !place.isSuffixOf entry.1
    distinct := disk.distinct.sublist (List.filter_sublist.map _)
    rooted := by
      intro entry mem
      obtain ⟨mem, kept⟩ := List.mem_filter.mp mem
      have := disk.rooted entry mem
      cases h : entry.1 with
      | nil => rw [h] at this; exact this
      | cons name parent =>
        rw [h] at this kept
        refine ⟨this.1, this.2.imp_right fun dir => List.mem_filter.mpr ⟨dir, ?_⟩⟩
        simp only [Bool.not_eq_true', List.isSuffixOf_iff_suffix, Bool.eq_false_iff,
          ne_eq] at kept ⊢
        exact fun suffix => kept (suffix.trans (List.suffix_cons name parent)) }

/-- What lies at or below a place that is removed is gone, but for the root itself. -/
theorem node?_removeAll (disk : Disk) (place other : Location) :
    (disk.removeAll place).node? other =
      if other ≠ [] ∧ place.isSuffixOf other then none else disk.node? other := by
  by_cases root : other = []
  · simp [node?, root]
  · simp only [node?, root, if_false, removeAll, ne_eq, not_false_eq_true, true_and]
    generalize disk.nodes = nodes
    induction nodes with
    | nil => simp
    | cons entry rest ih =>
      obtain ⟨here, node⟩ := entry
      rw [List.filter_cons, List.lookup_cons]
      by_cases eq : other = here
      · subst eq
        cases below : place.isSuffixOf other <;> simp [below] at ih ⊢
        exact ih
      · have ne : (other == here) = false := by simpa using eq
        cases place.isSuffixOf here <;> simp [ne, List.lookup_cons] <;> simpa using ih

end Disk

end BatchVerify
