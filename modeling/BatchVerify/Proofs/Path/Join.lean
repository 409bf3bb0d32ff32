import BatchVerify.Proofs.Path.Components

/-!
# Joined paths

A path below another has the components of the other, then its own (`Path.components_join`). A name
that is a component holds no separator and is neither empty nor `.` nor `..`
(`Path.proper_of_name?`), so a path joined with it has one component more
(`Path.components_join_name`), and a path above it that is its own without the name
(`Path.parent?_join_name`).
-/

namespace BatchVerify

namespace Pieces

variable {α : Type} [DecidableEq α] {sep : α}

/-- A cut at one separator leaves what is before it and what is after it to be cut. -/
theorem split_append_cons (xs ys : List α) :
    split sep (xs ++ sep :: ys) = split sep xs ++ split sep ys := by
  induction xs with
  | nil => simp [split]
  | cons a xs ih =>
    by_cases ha : a = sep
    · simp only [List.cons_append, split, ha, if_true, ih]
    · simp only [List.cons_append, split, ha, if_false, ih]
      cases hs : split sep xs with
      | nil => exact absurd hs (split_ne_nil sep xs)
      | cons piece pieces => rfl

/-- What holds no separator belongs to the first piece of what follows it. -/
theorem split_append_of_not_mem {xs : List α} (h : sep ∉ xs) (ys : List α) :
    ∃ first rest, split sep ys = first :: rest ∧ split sep (xs ++ ys) = (xs ++ first) :: rest := by
  obtain ⟨first, rest, hys⟩ := List.exists_cons_of_ne_nil (split_ne_nil sep ys)
  refine ⟨first, rest, hys, ?_⟩
  induction xs with
  | nil => exact hys
  | cons a xs ih =>
    obtain ⟨hne, hmem⟩ : sep ≠ a ∧ sep ∉ xs := by simpa using h
    simp only [List.cons_append, split, Ne.symm hne, if_false, ih hmem]

end Pieces

/-! ## Names -/

/-- A name that a component can have. -/
structure ProperName (name : Bytes) : Prop where
  slash : Bytes.slash ∉ name
  nonempty : name ≠ []
  not_current : name ≠ [Bytes.dot]
  not_parent : name ≠ [Bytes.dot, Bytes.dot]

namespace Component

theorem ofPiece?_eq_name_iff {piece name : Bytes} :
    ofPiece? piece = some (.name name) ↔
      piece = name ∧ piece ≠ [] ∧ piece ≠ [Bytes.dot] ∧ piece ≠ [Bytes.dot, Bytes.dot] := by
  unfold ofPiece?
  split_ifs with hidle hparent
  · simp only [false_iff]
    rintro ⟨-, hnil, hdot, -⟩
    exact hidle.elim hnil hdot
  · simp [hparent]
  · obtain ⟨hnil, hdot⟩ := not_or.mp hidle
    simp [hnil, hdot, hparent]

/-- Only one piece stands for a component. -/
theorem ofPiece?_injective {piece piece' : Bytes} {component : Component}
    (h : ofPiece? piece = some component) (h' : ofPiece? piece' = some component) :
    piece = piece' := by
  unfold ofPiece? at h h'
  split_ifs at h with hidle hparent <;> split_ifs at h' with hidle' hparent' <;> cases h <;> cases h'
  · exact hparent.trans hparent'.symm
  · rfl

end Component

theorem ProperName.ofPiece? {name : Bytes} (h : ProperName name) :
    Component.ofPiece? name = some (.name name) :=
  Component.ofPiece?_eq_name_iff.mpr ⟨rfl, h.nonempty, h.not_current, h.not_parent⟩

theorem ProperName.split {name : Bytes} (h : ProperName name) :
    Pieces.split Bytes.slash name = [name] :=
  Pieces.split_of_not_mem name h.slash

namespace Path

/-- A component that is a name is a piece of the path. -/
theorem mem_split_of_name_mem {p : Path} {name : Bytes} (h : .name name ∈ p.components) :
    ∃ piece ∈ Pieces.split Bytes.slash p.bytes,
      Component.ofPiece? piece = some (.name name) := by
  obtain ⟨first, later, hs⟩ := List.exists_cons_of_ne_nil (Pieces.split_ne_nil Bytes.slash p.bytes)
  rw [components_of_split hs, List.mem_append] at h
  rw [hs]
  rcases h with h | h
  · refine ⟨first, List.mem_cons_self, ?_⟩
    unfold leading at h
    split_ifs at h
    · cases h
    · simp at h
    · simp at h
    · exact Option.mem_toList.mp h
  · obtain ⟨piece, hpiece, hname⟩ := List.mem_filterMap.mp h
    exact ⟨piece, List.mem_cons_of_mem _ hpiece, hname⟩

theorem proper_of_name_mem {p : Path} {name : Bytes} (h : .name name ∈ p.components) :
    ProperName name := by
  obtain ⟨piece, hmem, hname⟩ := mem_split_of_name_mem h
  obtain ⟨rfl, hnil, hdot, hparent⟩ := Component.ofPiece?_eq_name_iff.mp hname
  exact ⟨Pieces.not_mem_of_mem_split hmem, hnil, hdot, hparent⟩

/-- The name of a path is a proper one. -/
theorem proper_of_name? {p : Path} {name : Bytes} (h : p.name? = some name) : ProperName name := by
  refine proper_of_name_mem (p := p) ?_
  rw [components_of_name? h]
  exact List.mem_append_right _ List.mem_cons_self

theorem name?_of_components {p : Path} {init : List Component} {name : Bytes}
    (h : p.components = init ++ [.name name]) : p.name? = some name := by
  unfold name?
  rw [h, List.getLast?_concat]

/-! ## Joins -/

theorem components_nil : (Path.mk []).components = [] := by
  simp [components, Pieces.split, leading]

/-- What follows a separator adds its own components. -/
theorem components_append_slash {xs : Bytes} (hxs : xs ≠ []) (ys : Bytes) :
    (Path.mk (xs ++ Bytes.slash :: ys)).components =
      (Path.mk xs).components ++
        (Pieces.split Bytes.slash ys).filterMap Component.ofPiece? := by
  obtain ⟨first, later, hs⟩ := List.exists_cons_of_ne_nil (Pieces.split_ne_nil Bytes.slash xs)
  have hjoined : Pieces.split Bytes.slash (xs ++ Bytes.slash :: ys) =
      first :: (later ++ Pieces.split Bytes.slash ys) := by
    rw [Pieces.split_append_cons, hs, List.cons_append]
  have hlater : first = [] → later ≠ [] := by
    rintro rfl rfl
    exact hxs (by rw [← Pieces.join_split Bytes.slash xs, hs]; rfl)
  have hys := Pieces.split_ne_nil Bytes.slash ys
  -- the first piece is followed by others in either path, if it is empty
  have hleading : leading first (later ++ Pieces.split Bytes.slash ys) = leading first later :=
    leading_congr fun hfirst => by simp [hlater hfirst, hys]
  rw [components_of_split hjoined, components_of_split (p := ⟨xs⟩) hs, hleading,
    List.filterMap_append, List.append_assoc]

theorem components_slash_append (ys : Bytes) :
    (Path.mk (Bytes.slash :: ys)).components =
      .root :: (Pieces.split Bytes.slash ys).filterMap Component.ofPiece? := by
  have hsplit : Pieces.split Bytes.slash (Bytes.slash :: ys) =
      [] :: Pieces.split Bytes.slash ys := by simp [Pieces.split]
  rw [components_of_split (p := ⟨Bytes.slash :: ys⟩) hsplit]
  simp [leading, Pieces.split_ne_nil]

/-- A relative path below another adds the components of its pieces; only below the empty path a
`.` in front of it counts. -/
theorem components_join {p q : Path} (hp : p.bytes ≠ []) (hq : q.isAbsolute = false) :
    (p.join q).components =
      p.components ++ (Pieces.split Bytes.slash q.bytes).filterMap Component.ofPiece? := by
  have hjoin : p.join q = if p.bytes.getLast? = some Bytes.slash then ⟨p.bytes ++ q.bytes⟩
      else ⟨p.bytes ++ Bytes.slash :: q.bytes⟩ := by
    simp [join, hq, hp]
  rw [hjoin]
  split_ifs with hlast
  · -- the separator is there already
    obtain ⟨init, hinit⟩ := List.getLast?_eq_some_iff.mp hlast
    obtain ⟨bytes⟩ := p
    dsimp only at hinit
    subst hinit
    rw [List.append_assoc, List.singleton_append]
    by_cases hnil : init = []
    · subst hnil
      rw [List.nil_append, List.nil_append, components_slash_append, components_slash_append]
      simp [Pieces.split, Component.ofPiece?]
    · rw [components_append_slash hnil, components_append_slash hnil]
      simp [Pieces.split, Component.ofPiece?]
  · exact components_append_slash hp q.bytes

theorem isAbsolute_of_not_mem {bytes : Bytes} (h : Bytes.slash ∉ bytes) :
    (Path.mk bytes).isAbsolute = false := by
  unfold isAbsolute
  cases bytes with
  | nil => rfl
  | cons b rest =>
    have hne : Bytes.slash ≠ b := (List.ne_and_not_mem_of_not_mem_cons h).1
    simpa using hne.symm

/-- A path joined with a proper name has that name for one more component. -/
theorem components_join_name (p : Path) {name : Bytes} (h : ProperName name) :
    (p.join ⟨name⟩).components = p.components ++ [.name name] := by
  by_cases hp : p.bytes = []
  · have hsplit : Pieces.split Bytes.slash (Path.mk name).bytes = [name] := h.split
    have hjoin : p.join ⟨name⟩ = ⟨name⟩ := by
      simp [join, isAbsolute_of_not_mem h.slash, hp]
    obtain ⟨bytes⟩ := p
    dsimp only at hp
    subst hp
    rw [hjoin, components_nil, components_of_split hsplit]
    simp [leading, h.nonempty, h.not_current, h.ofPiece?]
  · rw [components_join hp (isAbsolute_of_not_mem h.slash)]
    show _ ++ (Pieces.split Bytes.slash name).filterMap _ = _
    rw [h.split]
    simp [h.ofPiece?]

/-- The name that a path was joined with is its name. -/
theorem name?_join_name (p : Path) {name : Bytes} (h : ProperName name) :
    (p.join ⟨name⟩).name? = some name :=
  name?_of_components (components_join_name p h)

/-- The pieces of a path below a directory: those of the directory, and the name. -/
theorem split_join_name (dir : Path) {name : Bytes} (h : ProperName name) :
    ∃ init, Pieces.split Bytes.slash (dir.join ⟨name⟩).bytes = init ++ [name] ∧
      (dir.bytes ≠ [] → Pieces.split Bytes.slash dir.bytes = init ∨
        Pieces.split Bytes.slash dir.bytes = init ++ [[]]) := by
  have hrelative : ¬ (Path.mk name).isAbsolute = true := by simp [isAbsolute_of_not_mem h.slash]
  unfold join
  rw [if_neg hrelative]
  split_ifs with hjoined
  · by_cases hempty : dir.bytes = []
    · exact ⟨[], by rw [hempty]; exact h.split, fun hne => absurd hempty hne⟩
    · obtain ⟨init, hinit⟩ := List.getLast?_eq_some_iff.mp (hjoined.resolve_left hempty)
      refine ⟨Pieces.split Bytes.slash init, ?_, fun _ => Or.inr ?_⟩
      · show Pieces.split Bytes.slash (dir.bytes ++ name) = _
        rw [hinit, List.append_assoc, List.singleton_append, Pieces.split_append_cons, h.split]
      · rw [hinit, Pieces.split_append_cons]
        rfl
  · refine ⟨Pieces.split Bytes.slash dir.bytes, ?_, fun _ => Or.inl rfl⟩
    show Pieces.split Bytes.slash (dir.bytes ++ Bytes.slash :: name) = _
    rw [Pieces.split_append_cons, h.split]

theorem isAbsolute_join_name {dir : Path} {name : Bytes} (hdir : dir.bytes ≠ []) (h : ProperName name) :
    (dir.join ⟨name⟩).isAbsolute = dir.isAbsolute := by
  have hrelative : ¬ (Path.mk name).isAbsolute = true := by simp [isAbsolute_of_not_mem h.slash]
  obtain ⟨b, bytes, hbytes⟩ := List.exists_cons_of_ne_nil hdir
  unfold join
  rw [if_neg hrelative]
  split_ifs <;> simp [isAbsolute, hbytes]

theorem dropIdle_concat_name (pieces : List Bytes) {name : Bytes} (h : ProperName name) :
    dropIdle (pieces ++ [name]) = pieces ++ [name] := by
  rw [dropIdle_concat, h.ofPiece?]
  rfl

/-- Where the last two pieces are names, the directory has all pieces but the last. -/
theorem parent?_of_split {p : Path} {init : List Bytes} {dir name : Bytes}
    (h : Pieces.split Bytes.slash p.bytes = init ++ [dir] ++ [name]) (hdir : ProperName dir)
    (hname : ProperName name) : p.parent? = some ⟨Pieces.join Bytes.slash (init ++ [dir])⟩ := by
  unfold parent?
  rw [h]
  cases init with
  | nil =>
    rw [List.nil_append, List.singleton_append]
    dsimp only
    rw [show dropIdle [name] = [name] from dropIdle_concat_name [] hname]
    simp [hdir.nonempty, dropIdle]
  | cons first rest =>
    rw [List.cons_append, List.cons_append]
    dsimp only
    rw [dropIdle_concat_name _ hname]
    cases hinner : rest ++ [dir] ++ [name] with
    | nil => simp at hinner
    | cons piece pieces =>
      dsimp only
      rw [← hinner, List.dropLast_concat, dropIdle_concat_name _ hdir]
      cases rest <;> cases first <;> rfl

/-- The directory of a name below a path that ends in a name is that path, as it is spelled. -/
theorem parent?_join_name (p : Path) {dir name : Bytes} (hdir : ProperName dir)
    (hname : ProperName name) :
    ((p.join ⟨dir⟩).join ⟨name⟩).parent? = some (p.join ⟨dir⟩) := by
  obtain ⟨init, hsplit, -⟩ := split_join_name p hdir
  obtain ⟨init', hbelow, hbefore⟩ := split_join_name (p.join ⟨dir⟩) hname
  have hne : (p.join ⟨dir⟩).bytes ≠ [] := by
    intro hempty
    have hlast := congrArg List.getLast? hsplit
    rw [hempty] at hlast
    exact hdir.nonempty (by simpa [Pieces.split] using hlast.symm)
  -- the path ends in no separator
  obtain rfl : init' = init ++ [dir] := by
    rcases hbefore hne with heq | heq <;> rw [hsplit] at heq
    · exact heq.symm
    · exact absurd (List.append_inj' heq rfl).2 (by simpa using hdir.nonempty)
  rw [parent?_of_split hbelow hdir hname, ← hsplit, Pieces.join_split]

end Path

end BatchVerify
