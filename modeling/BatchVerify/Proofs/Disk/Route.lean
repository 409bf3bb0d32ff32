import BatchVerify.Proofs.Disk.Growth

/-!
# Routes

A route is a walk told by its steps (`Disk.Route`, `Disk.walk_eq_ok_iff`), so what holds of every step
holds of every walk that ends somewhere. Where a disk keeps what a walk comes by, the walk ends where it
did (`Disk.Route.kept`); where something is put at the free name that a walk ended at, it ends there
(`Disk.Route.taken`).
-/

namespace BatchVerify

/-- A walk for a file does not go on with separators alone. -/
def Aim.Allows (aim : Aim) (rest : List Bytes) : Prop :=
  ¬ (aim = .file ∧ rest ≠ [] ∧ dropTrailing rest = [])

/-- What a walk sees of a node: not what is in a file. -/
def Node.bare : Node → Node
  | .file _ => .file {}
  | node => node

theorem Node.ne_link_of_bare_eq {node node' : Node} (h : node'.bare = node.bare)
    (hlink : ∀ target, node ≠ .link target) (target : Path) : node' ≠ .link target := by
  rintro rfl
  cases node with
  | link other => exact hlink other rfl
  | directory => cases h
  | file file => cases h

namespace Disk

variable {disk after later : Disk} {aim : Aim} {links : Nat} {here place : Location}
  {piece name : Bytes} {pieces rest : List Bytes} {reached : Reached} {node : Node} {target path : Path}

/-! ## The steps of a walk -/

/-- A piece that is looked up as a name in a directory. -/
structure Asks (disk : Disk) (here : Location) (piece : Bytes) : Prop where
  directory : disk.node? here = some .directory
  not_idle : ¬ (piece = [] ∨ piece = [Bytes.dot])
  not_up : piece ≠ [Bytes.dot, Bytes.dot]
  short : ¬ maxNameLength < piece.length

/-- A walk that ends somewhere, step by step. The number is that of the links that it may pass. -/
inductive Route (disk : Disk) (aim : Aim) : Nat → Location → List Bytes → Reached → Prop
  | done {links : Nat} {here : Location} : Route disk aim links here [] (.place here)
  /-- A piece that stands for nothing. -/
  | idle {links : Nat} {here : Location} {piece : Bytes} {rest : List Bytes} {reached : Reached}
    (hdir : disk.node? here = some .directory) (hpiece : piece = [] ∨ piece = [Bytes.dot])
    (h : Route disk aim links here rest reached) : Route disk aim links here (piece :: rest) reached
  /-- A step out of a directory. -/
  | up {links : Nat} {here : Location} {rest : List Bytes} {reached : Reached}
    (hdir : disk.node? here = some .directory) (h : Route disk aim links here.tail rest reached) :
    Route disk aim links here ([Bytes.dot, Bytes.dot] :: rest) reached
  /-- The end at a free name. -/
  | free {links : Nat} {here : Location} {piece : Bytes} (hasks : disk.Asks here piece)
    (hnode : disk.node? (piece :: here) = none) : Route disk aim links here [piece] (.free here piece)
  /-- The end at a link that is looked for. -/
  | stop {links : Nat} {here : Location} {piece : Bytes} {target : Path} (hasks : disk.Asks here piece)
    (hnode : disk.node? (piece :: here) = some (.link target)) (haim : aim = .name) :
    Route disk aim links here [piece] (.place (piece :: here))
  /-- A link, which stands for the pieces of its target. -/
  | follow {links : Nat} {here : Location} {piece : Bytes} {rest : List Bytes} {target : Path}
    {reached : Reached} (hasks : disk.Asks here piece) (hallows : aim.Allows rest)
    (hnode : disk.node? (piece :: here) = some (.link target)) (hpast : ¬ (rest = [] ∧ aim = .name))
    (h : Route disk aim links (if target.isAbsolute then [] else here)
      (Pieces.split Bytes.slash target.bytes ++ rest) reached) :
    Route disk aim (links + 1) here (piece :: rest) reached
  /-- A step into a directory or to a file. -/
  | enter {links : Nat} {here : Location} {piece : Bytes} {rest : List Bytes} {node : Node}
    {reached : Reached} (hasks : disk.Asks here piece) (hallows : aim.Allows rest)
    (hnode : disk.node? (piece :: here) = some node) (hlink : ∀ target, node ≠ .link target)
    (h : Route disk aim links (piece :: here) rest reached) :
    Route disk aim links here (piece :: rest) reached

/-- What a walk does at a link. -/
def pass (disk : Disk) (aim : Aim) : Nat → Location → List Bytes → Except SystemError Reached
  | 0 => fun _ _ => .error (.os .linkLoop)
  | links + 1 => disk.walk aim links

theorem walk_eq_walkWith (disk : Disk) (aim : Aim) (links : Nat) :
    disk.walk aim links = disk.walkWith aim (disk.pass aim links) := by
  cases links <;> rfl

theorem Asks.walkWith_cons (h : disk.Asks here piece) (hallows : aim.Allows rest)
    (onLink : Location → List Bytes → Except SystemError Reached) :
    disk.walkWith aim onLink here (piece :: rest) =
      match disk.node? (piece :: here) with
      | none => if rest = [] then .ok (.free here piece) else .error (.os .noEntry)
      | some (.link target) =>
        if rest = [] ∧ aim = .name then .ok (.place (piece :: here))
        else
          onLink (if target.isAbsolute then [] else here)
            (Pieces.split Bytes.slash target.bytes ++ rest)
      | some _ => disk.walkWith aim onLink (piece :: here) rest := by
  refine (if_neg (not_not.mpr h.directory)).trans ?_
  refine (if_neg h.not_idle).trans ?_
  refine (if_neg h.not_up).trans ?_
  refine (if_neg hallows).trans ?_
  exact if_neg h.short

/-- A walk that ends somewhere takes the steps of a route. -/
theorem route_of_walk (h : disk.walk aim links here pieces = .ok reached) :
    disk.Route aim links here pieces reached := by
  -- links are what is counted, and between two of them the pieces get fewer
  induction links using Nat.strong_induction_on generalizing here pieces with
  | _ links ihlinks =>
    rw [walk_eq_walkWith] at h
    induction pieces generalizing here with
    | nil =>
      cases h
      exact .done
    | cons piece rest ih =>
      by_cases hdir : disk.node? here = some .directory
      swap
      · rw [walkWith, if_pos hdir] at h
        cases h
      by_cases hidle : piece = [] ∨ piece = [Bytes.dot]
      · rw [walkWith, if_neg (not_not.mpr hdir), if_pos hidle] at h
        exact .idle hdir hidle (ih h)
      by_cases hup : piece = [Bytes.dot, Bytes.dot]
      · rw [walkWith, if_neg (not_not.mpr hdir), if_neg hidle, if_pos hup] at h
        subst hup
        exact .up hdir (ih h)
      by_cases hallows : aim.Allows rest
      swap
      · rw [walkWith, if_neg (not_not.mpr hdir), if_neg hidle, if_neg hup,
          if_pos (not_not.mp hallows)] at h
        cases h
      by_cases hlong : maxNameLength < piece.length
      · rw [walkWith, if_neg (not_not.mpr hdir), if_neg hidle, if_neg hup, if_neg hallows,
          if_pos hlong] at h
        cases h
      have hasks : disk.Asks here piece := ⟨hdir, hidle, hup, hlong⟩
      rw [hasks.walkWith_cons hallows] at h
      cases hnode : disk.node? (piece :: here) with
      | none =>
        rw [hnode] at h
        dsimp only at h
        split_ifs at h with hlast
        cases h
        subst hlast
        exact .free hasks hnode
      | some node =>
        rw [hnode] at h
        cases node with
        | directory => exact .enter hasks hallows hnode Node.directory_ne_link (ih h)
        | file file => exact .enter hasks hallows hnode (Node.file_ne_link file) (ih h)
        | link target =>
          dsimp only at h
          by_cases hstop : rest = [] ∧ aim = .name
          · rw [if_pos hstop] at h
            cases h
            obtain ⟨rfl, haim⟩ := hstop
            exact .stop hasks hnode haim
          · rw [if_neg hstop] at h
            cases links with
            | zero => cases h
            | succ links =>
              exact .follow hasks hallows hnode hstop (ihlinks links (Nat.lt_succ_self links) h)

/-- The walk along a route ends where the route does. -/
theorem Route.walk_eq (h : disk.Route aim links here pieces reached) :
    disk.walk aim links here pieces = .ok reached := by
  induction h with
  | done => rw [walk_eq_walkWith, walkWith]
  | idle hdir hpiece h ih =>
    rw [walk_eq_walkWith, walkWith, if_neg (not_not.mpr hdir), if_pos hpiece, ← walk_eq_walkWith, ih]
  | up hdir h ih =>
    rw [walk_eq_walkWith, walkWith, if_neg (not_not.mpr hdir), if_neg (by decide), if_pos rfl,
      ← walk_eq_walkWith, ih]
  | free hasks hnode =>
    rw [walk_eq_walkWith, hasks.walkWith_cons (fun h => h.2.1 rfl), hnode]
    rfl
  | stop hasks hnode haim =>
    rw [walk_eq_walkWith, hasks.walkWith_cons (fun h => h.2.1 rfl), hnode]
    exact if_pos ⟨rfl, haim⟩
  | follow hasks hallows hnode hpast h ih =>
    rw [walk_eq_walkWith, hasks.walkWith_cons hallows, hnode]
    dsimp only
    rw [if_neg hpast, pass, ih]
  | @enter links here piece rest node reached hasks hallows hnode hlink h ih =>
    rw [walk_eq_walkWith, hasks.walkWith_cons hallows, hnode, ← walk_eq_walkWith]
    cases node with
    | directory => exact ih
    | file file => exact ih
    | link target => exact absurd rfl (hlink target)

/-- Walks that end somewhere are those that take the steps of a route. -/
theorem walk_eq_ok_iff :
    disk.walk aim links here pieces = .ok reached ↔ disk.Route aim links here pieces reached :=
  ⟨route_of_walk, Route.walk_eq⟩

/-- A path leads to the place that a route along its pieces ends at. -/
theorem find_eq_ok_iff : disk.find path = .ok place ↔
    ∃ pieces, path.pieces = .ok pieces ∧
      disk.Route .target maxLinks (disk.start path) pieces (.place place) := by
  unfold find reach
  cases hpieces : path.pieces with
  | error cause => simp [bind, Except.bind]
  | ok pieces =>
    simp only [bind, Except.bind, Except.ok.injEq, exists_eq_left', ← walk_eq_ok_iff]
    cases hwalk : disk.walk .target maxLinks (disk.start path) pieces with
    | error cause => simp
    | ok reached => cases reached <;> simp

theorem lookUp_eq_ok_iff : disk.lookUp path = .ok node ↔
    ∃ place, disk.find path = .ok place ∧ disk.node? place = some node := by
  unfold lookUp
  cases hfind : disk.find path with
  | error cause => simp [bind, Except.bind]
  | ok place =>
    simp only [bind, Except.bind, Except.ok.injEq, exists_eq_left']
    cases disk.node? place <;> simp

theorem isDirectory_iff : disk.isDirectory path = true ↔ disk.lookUp path = .ok .directory := by
  unfold isDirectory
  split
  · next h => simp [h]
  · next h =>
    simp only [Bool.false_eq_true, false_iff]
    exact h

/-! ## Disks that keep what is there -/

/-- Whatever a walk comes by stays. -/
structure Keeps (disk after : Disk) : Prop where
  workDir : after.workDir = disk.workDir
  node? : ∀ {place node}, disk.node? place = some node →
    ∃ node', after.node? place = some node' ∧ node'.bare = node.bare

theorem Keeps.directory (h : disk.Keeps after) (hnode : disk.node? place = some .directory) :
    after.node? place = some .directory := by
  obtain ⟨node, hafter, hbare⟩ := h.node? hnode
  cases node <;> cases hbare
  exact hafter

theorem Keeps.link (h : disk.Keeps after) (hnode : disk.node? place = some (.link target)) :
    after.node? place = some (.link target) := by
  obtain ⟨node, hafter, hbare⟩ := h.node? hnode
  cases node <;> cases hbare
  exact hafter

theorem Keeps.asks (h : disk.Keeps after) (hasks : disk.Asks here piece) : after.Asks here piece :=
  { hasks with directory := h.directory hasks.directory }

theorem Keeps.start_eq (h : disk.Keeps after) (path : Path) : after.start path = disk.start path := by
  rw [start, start, h.workDir]

/-- What is there stays as it is. -/
theorem Grows.node?_eq (h : disk.Grows after) (hnode : disk.node? place = some node) :
    after.node? place = some node := by
  rcases h.node? place with heq | ⟨hnone, -⟩
  · rw [heq, hnode]
  · rw [hnone] at hnode
    cases hnode

theorem Grows.keeps (h : disk.Grows after) : disk.Keeps after where
  workDir := h.workDir
  node? hnode := ⟨_, h.node?_eq hnode, rfl⟩

/-- A walk to what is there goes on to be one. -/
theorem Route.kept (h : disk.Keeps after) (hroute : disk.Route aim links here pieces (.place place)) :
    after.Route aim links here pieces (.place place) := by
  generalize hreached : Reached.place place = reached at hroute
  induction hroute with
  | done =>
    cases hreached
    exact .done
  | idle hdir hpiece _ ih => exact .idle (h.directory hdir) hpiece (ih hreached)
  | up hdir _ ih => exact .up (h.directory hdir) (ih hreached)
  | free => cases hreached
  | stop hasks hnode haim =>
    cases hreached
    exact .stop (h.asks hasks) (h.link hnode) haim
  | follow hasks hallows hnode hpast _ ih =>
    exact .follow (h.asks hasks) hallows (h.link hnode) hpast (ih hreached)
  | enter hasks hallows hnode hlink _ ih =>
    obtain ⟨node', hnode', hbare⟩ := h.node? hnode
    exact .enter (h.asks hasks) hallows hnode' (Node.ne_link_of_bare_eq hbare hlink) (ih hreached)

theorem find_kept (h : disk.Keeps after) (hfind : disk.find path = .ok place) :
    after.find path = .ok place := by
  obtain ⟨pieces, hpieces, hroute⟩ := find_eq_ok_iff.mp hfind
  refine find_eq_ok_iff.mpr ⟨pieces, hpieces, ?_⟩
  rw [h.start_eq]
  exact hroute.kept h

/-- What a path leads to stays what it leads to while a disk grows. -/
theorem Grows.lookUp (h : disk.Grows after) (hlook : disk.lookUp path = .ok node) :
    after.lookUp path = .ok node := by
  obtain ⟨place, hfind, hnode⟩ := lookUp_eq_ok_iff.mp hlook
  exact lookUp_eq_ok_iff.mpr ⟨place, find_kept h.keeps hfind, h.node?_eq hnode⟩

theorem Grows.isDirectory (h : disk.Grows after) (hdir : disk.isDirectory path = true) :
    after.isDirectory path = true :=
  isDirectory_iff.mpr (h.lookUp (isDirectory_iff.mp hdir))

theorem allows_target (rest : List Bytes) : Aim.target.Allows rest := nofun

/-- Once something is put at the free name that a walk ended at, a walk to what is there ends at it,
and goes on from it. -/
theorem Route.taken (h : disk.Keeps after) {dir : Location}
    (hroute : disk.Route aim links here pieces (.free dir name))
    (hnode : after.node? (name :: dir) = some node) (hlink : ∀ target, node ≠ .link target)
    (hrest : ∀ links, after.Route .target links (name :: dir) rest (.place (name :: dir))) :
    after.Route .target links here (pieces ++ rest) (.place (name :: dir)) := by
  generalize hreached : Reached.free dir name = reached at hroute
  induction hroute with
  | done => cases hreached
  | idle hdir hpiece _ ih => exact .idle (h.directory hdir) hpiece (ih hreached)
  | up hdir _ ih => exact .up (h.directory hdir) (ih hreached)
  | free hasks _ =>
    cases hreached
    exact .enter (h.asks hasks) (allows_target _) hnode hlink (hrest _)
  | stop => cases hreached
  | follow hasks _ hnode' _ _ ih =>
    refine .follow (h.asks hasks) (allows_target _) (h.link hnode') (fun hpast => nomatch hpast.2) ?_
    have hon := ih hreached
    rw [List.append_assoc] at hon
    exact hon
  | enter hasks _ hnode' hlink' _ ih =>
    obtain ⟨node', hafter, hbare⟩ := h.node? hnode'
    exact .enter (h.asks hasks) (allows_target _) hafter (Node.ne_link_of_bare_eq hbare hlink')
      (ih hreached)

end Disk

end BatchVerify
