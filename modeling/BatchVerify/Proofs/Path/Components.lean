import BatchVerify.Layout
import Mathlib.Data.List.Induction

/-!
# Paths by their components

What is asked of a path (its directory, its name, its extension) depends on its components alone,
so two spellings of one path get the same answer.

* `Pieces.split_join`: joined pieces are cut into the same pieces again;
* `Path.components_of_parent?`: the directory of a path has all components but the last;
* `Path.Same.name?_eq` and its corollaries: names and extensions are shared by all spellings.
-/

namespace BatchVerify

/-! ## Cutting and joining -/

namespace Pieces

variable {α : Type} [DecidableEq α] {sep : α}

theorem split_append (piece rest : List α) (h : sep ∉ piece) :
    split sep (piece ++ sep :: rest) = piece :: split sep rest := by
  induction piece with
  | nil => simp [split]
  | cons a piece ih =>
    obtain ⟨hne, hmem⟩ : sep ≠ a ∧ sep ∉ piece := by simpa using h
    simp only [List.cons_append, split, Ne.symm hne, if_false, ih hmem]

theorem split_of_not_mem (xs : List α) (h : sep ∉ xs) : split sep xs = [xs] := by
  induction xs with
  | nil => rfl
  | cons a xs ih =>
    obtain ⟨hne, hmem⟩ : sep ≠ a ∧ sep ∉ xs := by simpa using h
    simp only [split, Ne.symm hne, if_false, ih hmem]

/-- No piece holds a separator. -/
theorem not_mem_of_mem_split {xs piece : List α} (h : piece ∈ split sep xs) : sep ∉ piece := by
  induction xs generalizing piece with
  | nil => simp [split] at h; simp [h]
  | cons a xs ih =>
    by_cases ha : a = sep
    · simp only [split, ha, if_true, List.mem_cons] at h
      rcases h with rfl | h
      · exact List.not_mem_nil
      · exact ih h
    · simp only [split, ha, if_false] at h
      cases hs : split sep xs with
      | nil => exact absurd hs (split_ne_nil sep xs)
      | cons first pieces =>
        rw [hs] at h ih
        rcases List.mem_cons.mp h with rfl | h
        · have hfirst : sep ∉ first := ih List.mem_cons_self
          simp [Ne.symm ha, hfirst]
        · exact ih (List.mem_cons_of_mem _ h)

/-- Joined pieces are cut into the same pieces again. -/
theorem split_join {pieces : List (List α)} (hne : pieces ≠ [])
    (h : ∀ piece ∈ pieces, sep ∉ piece) : split sep (join sep pieces) = pieces := by
  induction pieces with
  | nil => exact absurd rfl hne
  | cons piece pieces ih =>
    have hpiece : sep ∉ piece := h piece List.mem_cons_self
    cases pieces with
    | nil => exact split_of_not_mem piece hpiece
    | cons next pieces =>
      rw [join_cons_of_ne_nil sep piece (List.cons_ne_nil _ _), split_append _ _ hpiece,
        ih (List.cons_ne_nil _ _) fun p hp => h p (List.mem_cons_of_mem _ hp)]

end Pieces

namespace Path

/-! ## Pieces that stand for nothing -/

theorem dropIdle_concat (pieces : List Bytes) (piece : Bytes) :
    dropIdle (pieces ++ [piece]) =
      if (Component.ofPiece? piece).isNone then dropIdle pieces else pieces ++ [piece] := by
  unfold dropIdle
  rw [List.reverse_append, List.reverse_singleton, List.singleton_append, List.dropWhile_cons]
  split <;> simp

theorem dropIdle_subset (pieces : List Bytes) : dropIdle pieces ⊆ pieces := by
  induction pieces using List.reverseRecOn with
  | nil => exact fun _ h => h
  | append_singleton pieces piece ih =>
    rw [dropIdle_concat]
    split
    · exact fun x hx => List.mem_append_left _ (ih hx)
    · exact fun _ h => h

theorem filterMap_dropIdle (pieces : List Bytes) :
    (dropIdle pieces).filterMap Component.ofPiece? = pieces.filterMap Component.ofPiece? := by
  induction pieces using List.reverseRecOn with
  | nil => rfl
  | append_singleton pieces piece ih =>
    rw [dropIdle_concat]
    split
    · next h => simp [ih, Option.isNone_iff_eq_none.mp h]
    · rfl

/-- The last piece that is kept stands for a component. -/
theorem filterMap_dropLast_dropIdle (pieces : List Bytes) :
    (dropIdle pieces).dropLast.filterMap Component.ofPiece? =
      (pieces.filterMap Component.ofPiece?).dropLast := by
  induction pieces using List.reverseRecOn with
  | nil => rfl
  | append_singleton pieces piece ih =>
    rw [dropIdle_concat]
    cases h : Component.ofPiece? piece with
    | none => simp [ih, h]
    | some component => simp [h]

theorem dropIdle_eq_nil_iff (pieces : List Bytes) :
    dropIdle pieces = [] ↔ pieces.filterMap Component.ofPiece? = [] := by
  induction pieces using List.reverseRecOn with
  | nil => simp [dropIdle]
  | append_singleton pieces piece ih =>
    rw [dropIdle_concat]
    cases h : Component.ofPiece? piece with
    | none => simp [ih, h]
    | some component => simp [h]

/-! ## Components and directories -/

theorem components_of_split {p : Path} {first : Bytes} {later : List Bytes}
    (h : Pieces.split Bytes.slash p.bytes = first :: later) :
    p.components = leading first later ++ later.filterMap Component.ofPiece? := by
  simp only [components, h]

theorem length_leading_le_one (first : Bytes) (later : List Bytes) :
    (leading first later).length ≤ 1 := by
  unfold leading
  split_ifs
  · simp
  · simp
  · simp
  · cases Component.ofPiece? first <;> simp

/-- The first piece means the same before any pieces; an empty one has to be followed by some. -/
theorem leading_congr {first : Bytes} {later later' : List Bytes}
    (h : first = [] → (later = [] ↔ later' = [])) : leading first later = leading first later' := by
  unfold leading
  by_cases hfirst : first = []
  · simp only [hfirst, if_true, h hfirst]
  · simp only [hfirst, if_false]

theorem components_mk_join {first : Bytes} {later : List Bytes}
    (h : ∀ piece ∈ first :: later, Bytes.slash ∉ piece) :
    (Path.mk (Pieces.join Bytes.slash (first :: later))).components =
      leading first later ++ later.filterMap Component.ofPiece? :=
  components_of_split (Pieces.split_join (List.cons_ne_nil _ _) h)

/-- A path has no directory when its components are at most the root. -/
theorem components_of_parent?_eq_none {p : Path} (h : p.parent? = none) :
    p.components = [] ∨ p.components = [.root] := by
  unfold parent? at h
  split at h
  · next hs => exact absurd hs (Pieces.split_ne_nil _ _)
  · next first later hs =>
    rw [components_of_split hs]
    split at h
    · next hidle =>
      split_ifs at h with hfirst
      -- no piece after the first counts, and the first one is empty: nothing, or separators only
      rw [(dropIdle_eq_nil_iff later).mp hidle, hfirst]
      by_cases hlater : later = []
      · left; simp [leading, hlater]
      · right; simp [leading, hlater]
    · split at h <;> cases h

/-- The directory of a path has all of its components but the last. -/
theorem components_of_parent? {p q : Path} (h : p.parent? = some q) :
    q.components = p.components.dropLast := by
  unfold parent? at h
  split at h
  · cases h
  · next first later hs =>
    rw [components_of_split hs]
    split at h
    · next hidle =>
      split_ifs at h with hfirst
      cases h
      rw [(dropIdle_eq_nil_iff later).mp hidle, List.append_nil]
      -- the first piece is all there is, and it is what goes
      have hlength := length_leading_le_one first later
      have hnil : (leading first later).dropLast = [] :=
        List.eq_nil_of_length_eq_zero (by rw [List.length_dropLast]; omega)
      rw [hnil]
      rfl
    · next inner hne =>
      have hlater : later.filterMap Component.ofPiece? ≠ [] :=
        fun hnil => hne ((dropIdle_eq_nil_iff later).mpr hnil)
      -- the last piece that counts goes, and with it what stands for nothing before it
      have hkept : (dropIdle (dropIdle later).dropLast).filterMap Component.ofPiece? =
          (later.filterMap Component.ofPiece?).dropLast := by
        rw [filterMap_dropIdle, filterMap_dropLast_dropIdle]
      rw [List.dropLast_append_of_ne_nil hlater, ← hkept]
      have hsome : later ≠ [] := by rintro rfl; exact hlater rfl
      split at h
      · -- the directory is the root itself
        next hnil =>
        cases h
        rw [hnil]
        simp [components, Pieces.split, leading, hsome, Component.ofPiece?]
      · next first _ _ hcases =>
        cases h
        -- the pieces that are kept are pieces still, so joining them can be undone
        have hslash : ∀ piece ∈ first :: dropIdle (dropIdle later).dropLast,
            Bytes.slash ∉ piece := by
          intro piece hmem
          refine @Pieces.not_mem_of_mem_split _ _ _ p.bytes _ ?_
          rw [hs]
          rcases List.mem_cons.mp hmem with rfl | hmem
          · exact List.mem_cons_self
          · exact List.mem_cons_of_mem _
              (dropIdle_subset _ (List.dropLast_subset _ (dropIdle_subset _ hmem)))
        rw [components_mk_join hslash]
        congr 1
        apply leading_congr
        intro hfirst
        simp only [hsome, iff_false]
        exact fun hnil => hcases hfirst hnil

/-! ## What all spellings of a path share -/

variable {p q r : Path}

namespace Same

theorem refl (p : Path) : p.Same p := rfl

theorem symm (h : p.Same q) : q.Same p := Eq.symm h

theorem trans (hpq : p.Same q) (hqr : q.Same r) : p.Same r := Eq.trans hpq hqr

/-- All spellings of a path have the same name. -/
theorem name?_eq (h : p.Same q) : p.name? = q.name? := by
  unfold name?
  rw [show p.components = q.components from h]

theorem extension?_eq (h : p.Same q) : p.extension? = q.extension? := by
  unfold extension?
  rw [h.name?_eq]

theorem hasExtension_eq (h : p.Same q) (extension : String) :
    hasExtension p extension = hasExtension q extension := by
  unfold hasExtension
  rw [h.extension?_eq]

end Same

/-- A name is the last component. -/
theorem components_of_name? {name : Bytes} (h : p.name? = some name) :
    p.components = p.components.dropLast ++ [.name name] := by
  unfold name? at h
  split at h
  · next bytes hlast =>
    cases h
    obtain ⟨init, hinit⟩ := List.getLast?_eq_some_iff.mp hlast
    rw [hinit, List.dropLast_concat]
  · cases h

/-- A path with an extension has a name to take it from. -/
theorem name?_isSome_of_hasExtension {extension : String} (h : hasExtension p extension = true) :
    p.name?.isSome := by
  unfold hasExtension extension? at h
  cases hname : p.name? with
  | none => simp [hname] at h
  | some name => rfl

/-- A path with a name lies in a directory. -/
theorem parent?_isSome_of_name? (h : p.name?.isSome) : p.parent?.isSome := by
  cases hparent : p.parent? with
  | none =>
    unfold name? at h
    rcases components_of_parent?_eq_none hparent with hnil | hroot
    · simp [hnil] at h
    · simp [hroot] at h
  | some parent => rfl

end Path

/-- A path becomes a source just when it has the extension, and keeps its spelling. -/
theorem Source.matching?_map_path (path : Path) (extension : String) :
    (Source.matching? path extension).map Source.path =
      if hasExtension path extension then some path else none := by
  unfold Source.matching?
  split_ifs with h
  · have hname := Path.name?_isSome_of_hasExtension h
    cases hstem : path.name? with
    | none => simp [hstem] at hname
    | some name => simp [Path.stem?, hstem]
  · rfl

/-- Among some files there is a source of which something holds just when it holds of a file with the
extension. -/
theorem Source.exists_matching?_iff {files : List Path} {extension : String} (P : Path → Prop) :
    (∃ source ∈ files.filterMap fun path => Source.matching? path extension, P source.path) ↔
      ∃ path ∈ files, path.extension? = some (Utf8.encode extension) ∧ P path := by
  constructor
  · rintro ⟨source, hsource, hP⟩
    obtain ⟨path, hmem, hmatch⟩ := List.mem_filterMap.mp hsource
    have hpath := Source.matching?_map_path path extension
    rw [hmatch, Option.map_some] at hpath
    split_ifs at hpath with hext
    rw [Option.some.inj hpath] at hP
    exact ⟨path, hmem, of_decide_eq_true hext, hP⟩
  · rintro ⟨path, hmem, hext, hP⟩
    have hhas : hasExtension path extension = true := decide_eq_true hext
    have hpath := Source.matching?_map_path path extension
    rw [if_pos hhas] at hpath
    obtain ⟨source, hsource, rfl⟩ := Option.map_eq_some_iff.mp hpath
    exact ⟨source, List.mem_filterMap.mpr ⟨_, hmem, hsource⟩, hP⟩

end BatchVerify
