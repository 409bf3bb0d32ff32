import BatchVerify.Proofs.Tree.Entries

/-!
# Plain paths

A plain path is a relative one that is made of names, with one separator between neighbours, and
short enough for an operating system. Its names are its components, so it is the only plain spelling
of its path (`Path.ofNames_same_iff`); taking its directory and entering a name change the names at
the end (`Path.parent?_ofNames`, `Path.join_ofNames`).
-/

namespace BatchVerify

/-- Each is a name that something on a disk can have. -/
def AllNames (names : List Bytes) : Prop := ∀ name ∈ names, IsName name

instance (names : List Bytes) : Decidable (AllNames names) :=
  inferInstanceAs (Decidable (∀ name ∈ names, IsName name))

theorem AllNames.proper {names : List Bytes} (h : AllNames names) {name : Bytes} (hmem : name ∈ names) :
    ProperName name :=
  Disk.properName_of_isName (h name hmem)

theorem AllNames.concat {init : List Bytes} {last : Bytes} (h : AllNames init) (hlast : IsName last) :
    AllNames (init ++ [last]) := by
  intro name hmem
  rcases List.mem_append.mp hmem with hmem | hmem
  · exact h name hmem
  · exact List.mem_singleton.mp hmem ▸ hlast

theorem AllNames.left {names names' : List Bytes} (h : AllNames (names ++ names')) : AllNames names :=
  fun name hmem => h name (List.mem_append_left _ hmem)

theorem AllNames.isName {init : List Bytes} {last : Bytes} (h : AllNames (init ++ [last])) :
    IsName last :=
  h last (List.mem_append_right _ List.mem_cons_self)

theorem AllNames.last {init : List Bytes} {last : Bytes} (h : AllNames (init ++ [last])) :
    ProperName last :=
  Disk.properName_of_isName h.isName

namespace Pieces

variable {α : Type} {sep : α}

theorem join_concat {pieces : List (List α)} (h : pieces ≠ []) (last : List α) :
    join sep (pieces ++ [last]) = join sep pieces ++ sep :: last := by
  induction pieces with
  | nil => exact absurd rfl h
  | cons piece pieces ih =>
    cases pieces with
    | nil => rfl
    | cons next pieces =>
      rw [List.cons_append, join_cons_of_ne_nil sep piece (by simp),
        join_cons_of_ne_nil sep piece (List.cons_ne_nil _ _), ih (List.cons_ne_nil _ _),
        List.append_assoc, List.cons_append]

/-- What is joined holds what the pieces hold, and separators. -/
theorem mem_of_mem_join {pieces : List (List α)} {a : α} (h : a ∈ join sep pieces) :
    a = sep ∨ ∃ piece ∈ pieces, a ∈ piece := by
  induction pieces with
  | nil => cases h
  | cons piece pieces ih =>
    cases pieces with
    | nil => exact Or.inr ⟨piece, List.mem_cons_self, h⟩
    | cons next pieces =>
      rw [join_cons_of_ne_nil sep piece (List.cons_ne_nil _ _), List.mem_append, List.mem_cons] at h
      rcases h with h | h | h
      · exact Or.inr ⟨piece, List.mem_cons_self, h⟩
      · exact Or.inl h
      · obtain hsep | ⟨other, hmem, ha⟩ := ih h
        · exact Or.inl hsep
        · exact Or.inr ⟨other, List.mem_cons_of_mem _ hmem, ha⟩

end Pieces

namespace Path

/-- The path that names spell. -/
def ofNames (names : List Bytes) : Path := ⟨Pieces.join Bytes.slash names⟩

variable {names : List Bytes}

theorem split_ofNames (hne : names ≠ []) (h : AllNames names) :
    Pieces.split Bytes.slash (ofNames names).bytes = names :=
  Pieces.split_join hne fun _ hmem => (h.proper hmem).slash

theorem ofNames_split (path : Path) : ofNames (Pieces.split Bytes.slash path.bytes) = path := by
  rw [ofNames, Pieces.join_split]

theorem ofNames_injective {names' : List Bytes} (hne : names ≠ []) (h : AllNames names)
    (hne' : names' ≠ []) (h' : AllNames names') (heq : ofNames names = ofNames names') :
    names = names' := by
  rw [← split_ofNames hne h, heq, split_ofNames hne' h']

theorem bytes_ofNames_ne_nil (hne : names ≠ []) (h : AllNames names) :
    (ofNames names).bytes ≠ [] := by
  intro hnil
  have hsplit := split_ofNames hne h
  rw [hnil] at hsplit
  rw [← hsplit] at h
  exact (h [] List.mem_cons_self).1 rfl

theorem filterMap_ofPiece? (h : AllNames names) :
    names.filterMap Component.ofPiece? = names.map .name := by
  induction names with
  | nil => rfl
  | cons name names ih =>
    obtain ⟨hname, hrest⟩ := List.forall_mem_cons.mp h
    rw [List.filterMap_cons_some (Disk.properName_of_isName hname).ofPiece?, List.map_cons, ih hrest]

/-- The components of a path that is made of names are these names. -/
theorem components_ofNames (hne : names ≠ []) (h : AllNames names) :
    (ofNames names).components = names.map .name := by
  obtain ⟨first, later, rfl⟩ := List.exists_cons_of_ne_nil hne
  have hfirst := h.proper List.mem_cons_self
  have hleading : leading first later = [.name first] := by
    simp [leading, hfirst.nonempty, hfirst.not_current, hfirst.ofPiece?]
  rw [components_of_split (split_ofNames hne h), hleading,
    filterMap_ofPiece? fun name hmem => h name (List.mem_cons_of_mem _ hmem)]
  rfl

theorem name?_ofNames {init : List Bytes} {last : Bytes} (h : AllNames (init ++ [last])) :
    (ofNames (init ++ [last])).name? = some last := by
  have hcomponents : (ofNames (init ++ [last])).components = init.map .name ++ [.name last] := by
    rw [components_ofNames (by simp) h, List.map_append, List.map_singleton]
  exact name?_of_components hcomponents

/-- There is one way to spell a path with names. -/
theorem ofNames_same_iff {names' : List Bytes} (hne : names ≠ []) (h : AllNames names)
    (hne' : names' ≠ []) (h' : AllNames names') :
    (ofNames names).Same (ofNames names') ↔ names = names' := by
  unfold Same
  rw [components_ofNames hne h, components_ofNames hne' h']
  exact List.map_inj_right fun a b hab => Component.name.inj hab

theorem isAbsolute_ofNames (hne : names ≠ []) (h : AllNames names) :
    (ofNames names).isAbsolute = false := by
  obtain ⟨first, later, rfl⟩ := List.exists_cons_of_ne_nil hne
  have hfirst := h.proper List.mem_cons_self
  obtain ⟨b, rest, rfl⟩ := List.exists_cons_of_ne_nil hfirst.nonempty
  have hb : b ≠ Bytes.slash := fun heq => hfirst.slash (heq ▸ List.mem_cons_self)
  unfold isAbsolute ofNames
  cases later <;> simpa [Pieces.join] using hb

theorem dropIdle_names (h : AllNames names) : dropIdle names = names := by
  induction names using List.reverseRecOn with
  | nil => rfl
  | append_singleton init last _ =>
    rw [dropIdle_concat, h.last.ofPiece?]
    rfl

/-- The directory of a path that is made of names has all names but the last. -/
theorem parent?_ofNames {init : List Bytes} {last : Bytes} (h : AllNames (init ++ [last])) :
    (ofNames (init ++ [last])).parent? = some (ofNames init) := by
  unfold parent?
  rw [split_ofNames (by simp) h]
  cases init with
  | nil => simp [dropIdle, h.isName.1, ofNames, Pieces.join]
  | cons first rest =>
    have hfirst : first ≠ [] := (h first List.mem_cons_self).1
    have hlater : AllNames (rest ++ [last]) := fun name hmem => h name (List.mem_cons_of_mem _ hmem)
    rw [List.cons_append]
    dsimp only
    rw [dropIdle_names hlater]
    split
    · next hnil => simp at hnil
    · rw [List.dropLast_concat, dropIdle_names hlater.left]
      split
      · next hnil _ => exact absurd rfl hfirst
      · rfl

theorem getLast?_ofNames_ne (hne : names ≠ []) (h : AllNames names) :
    (ofNames names).bytes.getLast? ≠ some Bytes.slash := by
  obtain ⟨init, last, rfl⟩ : ∃ init last, names = init ++ [last] :=
    ⟨_, _, (List.dropLast_append_getLast hne).symm⟩
  have hlast := h.last
  -- the last byte is the one of the last name
  have hbytes : (ofNames (init ++ [last])).bytes.getLast? = last.getLast? := by
    by_cases hinit : init = []
    · subst hinit
      rfl
    · rw [ofNames, Pieces.join_concat hinit, List.getLast?_append_of_ne_nil _ (List.cons_ne_nil _ _)]
      obtain ⟨b, rest, rfl⟩ := List.exists_cons_of_ne_nil hlast.nonempty
      rfl
  rw [hbytes]
  exact fun heq => hlast.slash (List.mem_of_getLast? heq)

theorem slash_mem_ofNames {init : List Bytes} (h : init ≠ []) (last : Bytes) :
    Bytes.slash ∈ (ofNames (init ++ [last])).bytes := by
  rw [ofNames, Pieces.join_concat h]
  exact List.mem_append_right _ List.mem_cons_self

/-- A path is no shorter than that of its directory. -/
theorem length_ofNames_le (init : List Bytes) (last : Bytes) :
    (ofNames init).bytes.length ≤ (ofNames (init ++ [last])).bytes.length := by
  by_cases hinit : init = []
  · subst hinit
    exact Nat.zero_le _
  · rw [ofNames, ofNames, Pieces.join_concat hinit, List.length_append]
    exact Nat.le_add_right _ _

/-- A name in the directory that names lead to. -/
theorem join_ofNames {dir : List Bytes} {name : Bytes} (hne : dir ≠ []) (h : AllNames (dir ++ [name])) :
    (ofNames dir).join ⟨name⟩ = ofNames (dir ++ [name]) := by
  have hrelative : (Path.mk name).isAbsolute = false := isAbsolute_of_not_mem h.last.slash
  have hinner : ¬ ((ofNames dir).bytes = [] ∨ (ofNames dir).bytes.getLast? = some Bytes.slash) :=
    not_or.mpr ⟨bytes_ofNames_ne_nil hne h.left, getLast?_ofNames_ne hne h.left⟩
  rw [join, if_neg (by simp [hrelative]), if_neg hinner, ofNames, ofNames, Pieces.join_concat hne]

/-- What an operating system walks along are the names. -/
theorem pieces_ofNames (hne : names ≠ []) (h : AllNames names)
    (hshort : (ofNames names).bytes.length < maxPathLength) :
    (ofNames names).pieces = .ok names := by
  have hnul : Bytes.nul ∉ (ofNames names).bytes := by
    intro hmem
    obtain hslash | ⟨name, hname, hmem⟩ := Pieces.mem_of_mem_join hmem
    · exact absurd hslash (by decide)
    · exact (h name hname).2.2.2.2.1 hmem
  rw [pieces, if_neg hnul, if_neg (bytes_ofNames_ne_nil hne h), if_neg (by omega),
    split_ofNames hne h]

/-! ## Plain paths -/

/-- A relative path of names, short enough for an operating system. -/
structure Plain (path : Path) : Prop where
  names : AllNames (Pieces.split Bytes.slash path.bytes)
  short : path.bytes.length < maxPathLength

instance (path : Path) : Decidable path.Plain :=
  decidable_of_iff
    (AllNames (Pieces.split Bytes.slash path.bytes) ∧ path.bytes.length < maxPathLength)
    ⟨fun h => ⟨h.1, h.2⟩, fun h => ⟨h.names, h.short⟩⟩

theorem Plain.exists_names {path : Path} (h : path.Plain) :
    ∃ names, names ≠ [] ∧ AllNames names ∧ path = ofNames names :=
  ⟨_, Pieces.split_ne_nil _ _, h.names, (ofNames_split path).symm⟩

theorem Plain.exists_last {path : Path} (h : path.Plain) :
    ∃ init last, AllNames (init ++ [last]) ∧ path = ofNames (init ++ [last]) := by
  obtain ⟨names, hne, hnames, hpath⟩ := h.exists_names
  obtain ⟨init, last, rfl⟩ : ∃ init last, names = init ++ [last] :=
    ⟨_, _, (List.dropLast_append_getLast hne).symm⟩
  exact ⟨init, last, hnames, hpath⟩

theorem Plain.eq_of_same {p q : Path} (hp : p.Plain) (hq : q.Plain) (h : p.Same q) : p = q := by
  obtain ⟨names, hne, hnames, rfl⟩ := hp.exists_names
  obtain ⟨names', hne', hnames', rfl⟩ := hq.exists_names
  rw [(ofNames_same_iff hne hnames hne' hnames').mp h]

end Path

end BatchVerify
