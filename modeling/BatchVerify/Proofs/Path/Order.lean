import BatchVerify.Proofs.Path.Components
import BatchVerify.Tree.Memory

/-!
# The order of paths, and sets of paths in that order

`Path.order` compares components, so it tells two paths apart exactly when they are not spellings
of one path. A list that ascends in it is a set of paths: `insertPath` adds to it, `containsPath`
asks for a member, and `Directories.alter` changes a table with such a list of keys.
-/

namespace BatchVerify

theorem Component.rank_injective : Function.Injective Component.rank := by
  intro a b h
  cases a <;> cases b <;> simp_all [Component.rank]

namespace Path

variable {p q r : Path}

theorem order_eq_iff : p.order q = .eq ↔ p.Same q := by
  unfold order Same
  rw [Std.compare_eq_iff_eq]
  exact List.map_inj_right fun _ _ h => Component.rank_injective h

theorem order_trans (hpq : p.order q = .lt) (hqr : q.order r = .lt) : p.order r = .lt := by
  unfold order at *
  exact Std.TransCmp.lt_trans hpq hqr

theorem order_eq_gt_iff : p.order q = .gt ↔ q.order p = .lt := by
  unfold order
  exact Std.OrientedCmp.gt_iff_lt

theorem not_same_of_order (h : p.order q = .lt) : ¬ p.Same q := by
  intro hsame
  rw [order_eq_iff.mpr hsame] at h
  cases h

/-- A list of paths without two spellings of one path, in the order of paths. -/
def Ascending (paths : List Path) : Prop := paths.Pairwise fun p q => p.order q = .lt

/-- The members of an ascending list differ as paths. -/
theorem Ascending.pairwise_not_same {paths : List Path} (h : Ascending paths) :
    paths.Pairwise fun p q => ¬ p.Same q :=
  List.Pairwise.imp not_same_of_order h

theorem Ascending.filter {paths : List Path} (h : Ascending paths) (keep : Path → Bool) :
    Ascending (paths.filter keep) :=
  List.Pairwise.filter keep h

/-- The members of an ascending list have different components. -/
theorem Ascending.nodup_components {paths : List Path} (h : Ascending paths) :
    (paths.map components).Nodup :=
  List.pairwise_map.mpr h.pairwise_not_same

end Path

open BatchVerify.Path (Ascending)

/-! ## Sets of paths -/

theorem containsPath_iff {paths : List Path} {path : Path} :
    containsPath paths path = true ↔ ∃ p ∈ paths, p.Same path := by
  simp [containsPath]

theorem mem_insertPath {paths : List Path} {path p : Path} (h : p ∈ insertPath path paths) :
    p = path ∨ p ∈ paths := by
  induction paths with
  | nil => simpa [insertPath] using h
  | cons first rest ih =>
    simp only [insertPath] at h
    split at h
    · simpa using h
    · exact Or.inr h
    · rcases List.mem_cons.mp h with rfl | h
      · exact Or.inr List.mem_cons_self
      · exact (ih h).imp_right (List.mem_cons_of_mem _)

theorem subset_insertPath (path : Path) (paths : List Path) : paths ⊆ insertPath path paths := by
  induction paths with
  | nil => exact List.nil_subset _
  | cons first rest ih =>
    simp only [insertPath]
    split
    · exact List.subset_cons_self _ _
    · exact List.Subset.refl _
    · exact List.cons_subset_cons _ ih

/-- A path is in a set after an insertion when it was before, or is the one inserted. -/
theorem containsPath_insertPath {paths : List Path} {path p : Path} :
    containsPath (insertPath path paths) p = true ↔
      path.Same p ∨ containsPath paths p = true := by
  simp only [containsPath_iff]
  constructor
  · rintro ⟨member, hmem, hsame⟩
    rcases mem_insertPath hmem with rfl | hmem
    · exact Or.inl hsame
    · exact Or.inr ⟨member, hmem, hsame⟩
  · rintro (hsame | ⟨member, hmem, hsame⟩)
    · -- the new path, or the spelling of it that was there first
      induction paths with
      | nil => exact ⟨path, by simp [insertPath], hsame⟩
      | cons first rest ih =>
        simp only [insertPath]
        split
        · exact ⟨path, List.mem_cons_self, hsame⟩
        · next heq =>
          exact ⟨first, List.mem_cons_self, (Path.order_eq_iff.mp heq).symm.trans hsame⟩
        · obtain ⟨member, hmem, hsame⟩ := ih
          exact ⟨member, List.mem_cons_of_mem _ hmem, hsame⟩
    · exact ⟨member, subset_insertPath path paths hmem, hsame⟩

theorem ascending_insertPath {paths : List Path} (path : Path) (h : Ascending paths) :
    Ascending (insertPath path paths) := by
  induction paths with
  | nil => simp [insertPath, Ascending]
  | cons first rest ih =>
    obtain ⟨hfirst, hrest⟩ := List.pairwise_cons.mp h
    simp only [insertPath]
    split
    · next hlt =>
      refine List.pairwise_cons.mpr ⟨fun p hp => ?_, h⟩
      rcases List.mem_cons.mp hp with rfl | hp
      · exact hlt
      · exact Path.order_trans hlt (hfirst p hp)
    · exact h
    · next hgt =>
      refine List.pairwise_cons.mpr ⟨fun p hp => ?_, ih hrest⟩
      rcases mem_insertPath hp with rfl | hp
      · exact Path.order_eq_gt_iff.mp hgt
      · exact hfirst p hp

/-! ## Tables of directories -/

namespace Directories

theorem entries?_cons (dir : Path) (entries : List Path) (rest : Directories) (path : Path) :
    entries? ((dir, entries) :: rest) path =
      if dir.Same path then some entries else entries? rest path := by
  unfold entries?
  rw [List.find?_cons]
  split_ifs with h <;> simp [h]

theorem entries?_congr {path path' : Path} (h : path.Same path') (dirs : Directories) :
    dirs.entries? path = dirs.entries? path' := by
  unfold entries?
  congr 1
  refine congrArg (dirs.find? ·) (funext fun dir => ?_)
  rw [decide_eq_decide]
  exact ⟨fun hdir => hdir.trans h, fun hdir => hdir.trans h.symm⟩

theorem contains_congr {path path' : Path} (h : path.Same path') (dirs : Directories) :
    dirs.contains path = dirs.contains path' := by
  unfold contains
  rw [entries?_congr h]

theorem entries?_eq_none_of_before {dirs : Directories} {path : Path}
    (h : ∀ dir ∈ dirs, path.order dir.1 = .lt) : dirs.entries? path = none := by
  unfold entries?
  rw [Option.map_eq_none_iff, List.find?_eq_none]
  intro dir hdir
  simp only [decide_eq_true_eq]
  exact fun hsame => Path.not_same_of_order (h dir hdir) hsame.symm

/-- After a change, a directory has what the change made of its entries, and every other
directory has what it had. -/
theorem entries?_alter {dirs : Directories} (h : Ascending (dirs.map Prod.fst)) (path : Path)
    (change : List Path → List Path) (p : Path) :
    (dirs.alter path change).entries? p =
      if path.Same p then some (change ((dirs.entries? path).getD [])) else dirs.entries? p := by
  induction dirs with
  | nil => rw [alter, entries?_cons]; rfl
  | cons dir rest ih =>
    obtain ⟨first, entries⟩ := dir
    obtain ⟨hfirst, hrest⟩ := List.pairwise_cons.mp h
    simp only [alter]
    split
    · next hlt =>
      -- the directory goes in before all others, so it was not known
      have hnone : entries? ((first, entries) :: rest) path = none := by
        refine entries?_eq_none_of_before fun dir hdir => ?_
        rcases List.mem_cons.mp hdir with rfl | hdir
        · exact hlt
        · exact Path.order_trans hlt (hfirst dir.1 (List.mem_map_of_mem hdir))
      rw [entries?_cons, hnone]
      rfl
    · next heq =>
      have hsame : path.Same first := Path.order_eq_iff.mp heq
      rw [entries?_cons, entries?_cons, entries?_cons, if_pos hsame.symm]
      by_cases hp : path.Same p
      · rw [if_pos hp, if_pos (hsame.symm.trans hp)]; rfl
      · rw [if_neg hp, if_neg fun hfirst => hp (hsame.trans hfirst),
          if_neg fun hfirst => hp (hsame.trans hfirst)]
    · next hgt =>
      -- the directory goes in somewhere after the first one
      have hne : ¬ first.Same path := Path.not_same_of_order (Path.order_eq_gt_iff.mp hgt)
      rw [entries?_cons, ih hrest, entries?_cons, entries?_cons, if_neg hne]
      by_cases hp : first.Same p
      · rw [if_pos hp, if_neg fun hpath => hne (hp.trans hpath.symm), if_pos hp]
      · rw [if_neg hp, if_neg hp]

theorem contains_alter {dirs : Directories} (h : Ascending (dirs.map Prod.fst)) (path : Path)
    (change : List Path → List Path) (p : Path) :
    (dirs.alter path change).contains p = (decide (path.Same p) || dirs.contains p) := by
  unfold contains
  rw [entries?_alter h]
  split_ifs with hp <;> simp [hp]

theorem mem_keys_alter {dirs : Directories} {path p : Path} {change : List Path → List Path}
    (h : p ∈ (dirs.alter path change).map Prod.fst) : p = path ∨ p ∈ dirs.map Prod.fst := by
  induction dirs with
  | nil => simpa [alter] using h
  | cons dir rest ih =>
    obtain ⟨first, entries⟩ := dir
    simp only [alter] at h
    split at h
    · simpa using h
    · exact Or.inr (by simpa using h)
    · rcases List.mem_cons.mp h with rfl | h
      · exact Or.inr List.mem_cons_self
      · exact (ih h).imp_right (List.mem_cons_of_mem _)

theorem ascending_alter {dirs : Directories} (h : Ascending (dirs.map Prod.fst)) (path : Path)
    (change : List Path → List Path) : Ascending ((dirs.alter path change).map Prod.fst) := by
  induction dirs with
  | nil => simp [alter, Ascending]
  | cons dir rest ih =>
    obtain ⟨first, entries⟩ := dir
    obtain ⟨hfirst, hrest⟩ := List.pairwise_cons.mp h
    simp only [alter]
    split
    · next hlt =>
      refine List.pairwise_cons.mpr ⟨fun p hp => ?_, h⟩
      rcases List.mem_cons.mp hp with rfl | hp
      · exact hlt
      · exact Path.order_trans hlt (hfirst p hp)
    · exact h
    · next hgt =>
      refine List.pairwise_cons.mpr ⟨fun p hp => ?_, ih hrest⟩
      rcases mem_keys_alter hp with rfl | hp
      · exact Path.order_eq_gt_iff.mp hgt
      · exact hfirst p hp

end Directories

end BatchVerify
