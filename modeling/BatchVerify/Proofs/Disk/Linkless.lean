import BatchVerify.Proofs.Disk.Route

/-!
# Disks without links

Without links a walk takes no detours, so a walk along a path and on to a name goes through the place of
the path (`Disk.Linkless.route_append_iff`), and a path below a directory leads to what has its name
there (`Disk.Linkless.lookUp_join_iff`).
-/

namespace BatchVerify

namespace Disk

variable {disk : Disk} {links : Nat} {here place : Location} {name : Bytes} {pieces rest : List Bytes}

/-- No place holds a link. -/
def Linkless (disk : Disk) : Prop := ∀ place target, disk.node? place ≠ some (.link target)

theorem linkless_iff {disk : Disk} :
    disk.Linkless ↔ ∀ entry ∈ disk.nodes, ¬ (entry.2 matches .link _) = true := by
  constructor
  · rintro h ⟨place, node⟩ hmem hlink
    cases node with
    | directory => cases hlink
    | file file => cases hlink
    | link target =>
      cases place with
      | nil => exact disk.rooted _ hmem
      | cons name here => exact h _ target (node?_cons_eq_some_iff.mpr hmem)
  · intro h place target hnode
    cases place with
    | nil => cases hnode
    | cons name here => exact h _ (node?_cons_eq_some_iff.mp hnode) rfl

instance : DecidablePred Linkless := fun _ => decidable_of_iff' _ linkless_iff

/-- A walk along pieces is one along the first of them and on from there. -/
theorem Linkless.route_append_iff (h : disk.Linkless) :
    disk.Route .target links here (pieces ++ rest) (.place place) ↔
      ∃ middle, disk.Route .target links here pieces (.place middle) ∧
        disk.Route .target links middle rest (.place place) := by
  induction pieces generalizing here with
  | nil =>
    refine ⟨fun hroute => ⟨here, .done, hroute⟩, ?_⟩
    rintro ⟨middle, hfirst, hroute⟩
    cases hfirst
    exact hroute
  | cons piece pieces ih =>
    rw [List.cons_append]
    constructor
    · intro hroute
      generalize hall : pieces ++ rest = all at hroute
      cases hroute with
      | idle hdir hpiece hroute =>
        subst hall
        obtain ⟨middle, hfirst, hlast⟩ := ih.mp hroute
        exact ⟨middle, .idle hdir hpiece hfirst, hlast⟩
      | up hdir hroute =>
        subst hall
        obtain ⟨middle, hfirst, hlast⟩ := ih.mp hroute
        exact ⟨middle, .up hdir hfirst, hlast⟩
      | stop _ _ haim => cases haim
      | follow _ _ hnode => exact absurd hnode (h _ _)
      | enter hasks _ hnode hlink hroute =>
        subst hall
        obtain ⟨middle, hfirst, hlast⟩ := ih.mp hroute
        exact ⟨middle, .enter hasks (allows_target _) hnode hlink hfirst, hlast⟩
    · rintro ⟨middle, hfirst, hlast⟩
      cases hfirst with
      | idle hdir hpiece hroute => exact .idle hdir hpiece (ih.mpr ⟨middle, hroute, hlast⟩)
      | up hdir hroute => exact .up hdir (ih.mpr ⟨middle, hroute, hlast⟩)
      | stop _ _ haim => cases haim
      | follow _ _ hnode => exact absurd hnode (h _ _)
      | enter hasks _ hnode hlink hroute =>
        exact .enter hasks (allows_target _) hnode hlink (ih.mpr ⟨middle, hroute, hlast⟩)

/-- A walk along one name ends at what has that name. -/
theorem Linkless.route_name_iff (h : disk.Linkless) (hname : IsName name) :
    disk.Route .target links here [name] (.place place) ↔
      place = name :: here ∧ (disk.node? place).isSome := by
  have hproper := properName_of_isName hname
  have hidle : ¬ (name = [] ∨ name = [Bytes.dot]) := not_or.mpr ⟨hproper.nonempty, hproper.not_current⟩
  constructor
  · intro hroute
    cases hroute with
    | idle _ hpiece => exact absurd hpiece hidle
    | up => exact absurd rfl hproper.not_parent
    | stop _ _ haim => cases haim
    | follow _ _ hnode => exact absurd hnode (h _ _)
    | enter _ _ hnode _ hroute =>
      cases hroute
      exact ⟨rfl, by rw [hnode]; rfl⟩
  · rintro ⟨rfl, hthere⟩
    obtain ⟨node, hnode⟩ := Option.isSome_iff_exists.mp hthere
    have hlong : ¬ maxNameLength < name.length := by
      have hshort := hname.2.2.2.2.2
      omega
    refine .enter ⟨(directory_of_node?_cons hnode).2, hidle, hproper.not_parent, hlong⟩
      (allows_target _) hnode (fun target heq => ?_) .done
    subst heq
    exact h _ _ hnode

end Disk

namespace Path

theorem pieces_eq_ok_iff {path : Path} {pieces : List Bytes} : path.pieces = .ok pieces ↔
    Bytes.nul ∉ path.bytes ∧ path.bytes ≠ [] ∧ path.bytes.length < maxPathLength ∧
      Pieces.split Bytes.slash path.bytes = pieces := by
  unfold Path.pieces
  split_ifs with hnul hempty hlong
  · simp [hnul]
  · simp [hempty]
  · simp [hlong]
  · simp [hnul, hempty, Nat.not_le.mp hlong]

theorem nul_mem_join_name {dir : Path} {name : Bytes} (h : IsName name) :
    Bytes.nul ∈ (dir.join ⟨name⟩).bytes ↔ Bytes.nul ∈ dir.bytes := by
  have hslash : Bytes.nul ≠ Bytes.slash := by decide
  have hrelative : ¬ (Path.mk name).isAbsolute = true := by
    simp [isAbsolute_of_not_mem (Disk.properName_of_isName h).slash]
  unfold join
  rw [if_neg hrelative]
  split_ifs <;> simp [h.2.2.2.2.1, hslash]

end Path

namespace Disk

variable {disk : Disk} {dir : Path} {place : Location} {name : Bytes} {node : Node}

/-- Without links, a path below a directory leads to the place of the name there, if it is not too
long. -/
theorem Linkless.find_join_iff {found : Location} (h : disk.Linkless) (hplace : disk.find dir = .ok place)
    (hname : IsName name) : disk.find (dir.join ⟨name⟩) = .ok found ↔
      (dir.join ⟨name⟩).bytes.length < maxPathLength ∧ found = name :: place ∧
        (disk.node? found).isSome := by
  have hproper := properName_of_isName hname
  obtain ⟨pieces, hpieces, hroute⟩ := find_eq_ok_iff.mp hplace
  obtain ⟨hnul, hne, -, hsplit⟩ := Path.pieces_eq_ok_iff.mp hpieces
  obtain ⟨init, hjoined, hdir⟩ := Path.split_join_name dir hproper
  have hstart : disk.start (dir.join ⟨name⟩) = disk.start dir := by
    rw [start, start, Path.isAbsolute_join_name hne hproper]
  -- the walk to the name goes through the place of the directory
  have hinit : disk.Route .target maxLinks (disk.start dir) init (.place place) := by
    rw [← hsplit] at hroute
    rcases hdir hne with heq | heq
    · rwa [heq] at hroute
    · rw [heq, h.route_append_iff] at hroute
      obtain ⟨middle, hfirst, hlast⟩ := hroute
      cases hlast with
      | idle _ _ hdone =>
        cases hdone
        exact hfirst
      | stop _ _ haim => cases haim
      | follow hasks => exact absurd (Or.inl rfl) hasks.not_idle
      | enter hasks => exact absurd (Or.inl rfl) hasks.not_idle
  constructor
  · intro hfind
    obtain ⟨pieces', hpieces', hroute'⟩ := find_eq_ok_iff.mp hfind
    obtain ⟨-, -, hshort, hsplit'⟩ := Path.pieces_eq_ok_iff.mp hpieces'
    rw [← hsplit', hjoined, hstart, h.route_append_iff] at hroute'
    obtain ⟨middle, hfirst, hlast⟩ := hroute'
    obtain rfl : middle = place := by
      have hsame := hfirst.walk_eq.symm.trans hinit.walk_eq
      cases hsame
      rfl
    exact ⟨hshort, (h.route_name_iff hname).mp hlast⟩
  · rintro ⟨hshort, hthere⟩
    refine find_eq_ok_iff.mpr ⟨init ++ [name], ?_, ?_⟩
    · refine Path.pieces_eq_ok_iff.mpr ⟨?_, ?_, hshort, hjoined⟩
      · rwa [Path.nul_mem_join_name hname]
      · intro hempty
        rw [hempty] at hjoined
        have hlast : some [] = some name := by
          simpa [Pieces.split] using congrArg List.getLast? hjoined
        exact hproper.nonempty (Option.some.inj hlast).symm
    · rw [hstart, h.route_append_iff]
      exact ⟨place, hinit, (h.route_name_iff hname).mpr hthere⟩

/-- Without links, a path below a directory leads to what has the name there, if it is not too long. -/
theorem Linkless.lookUp_join_iff (h : disk.Linkless) (hplace : disk.find dir = .ok place)
    (hname : IsName name) : disk.lookUp (dir.join ⟨name⟩) = .ok node ↔
      (dir.join ⟨name⟩).bytes.length < maxPathLength ∧ disk.node? (name :: place) = some node := by
  rw [lookUp_eq_ok_iff]
  constructor
  · rintro ⟨found, hfind, hnode⟩
    obtain ⟨hshort, rfl, -⟩ := (h.find_join_iff hplace hname).mp hfind
    exact ⟨hshort, hnode⟩
  · rintro ⟨hshort, hnode⟩
    exact ⟨name :: place, (h.find_join_iff hplace hname).mpr ⟨hshort, rfl, by rw [hnode]; rfl⟩, hnode⟩

end Disk

end BatchVerify
