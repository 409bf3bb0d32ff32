import BatchVerify.Proofs.Path.Join
import Mathlib.Data.List.TakeWhile

/-!
# Extensions

A name is cut at its last dot, so there is one way to read it as a stem, a dot and an extension
without a dot (`splitExtension_eq_iff`). A path is a source just when its name reads so with the
extension that is asked for (`Source.matching?_eq_some_iff`).
-/

namespace BatchVerify

namespace Pieces

variable {α : Type} [DecidableEq α] {sep : α}

/-- What is cut at the last separator is put together with it again, and holds none after it. -/
theorem cutLast?_eq_some_iff {xs before after : List α} :
    cutLast? sep xs = some (before, after) ↔ xs = before ++ sep :: after ∧ sep ∉ after := by
  unfold cutLast?
  constructor
  · intro h
    have hwhole := List.takeWhile_append_dropWhile (p := fun a => decide (a ≠ sep)) (l := xs.reverse)
    have hdropped := List.head?_dropWhile_not (fun a => decide (a ≠ sep)) xs.reverse
    have htaken : ∀ a ∈ xs.reverse.takeWhile (fun a => decide (a ≠ sep)), a ≠ sep :=
      fun a ha => by simpa using List.mem_takeWhile_imp ha
    split at h
    · cases h
    · next first rest hdrop =>
      cases h
      rw [hdrop] at hwhole hdropped
      -- the first one that is dropped no longer differs from the separator
      obtain rfl : first = sep := by simpa using hdropped
      refine ⟨?_, fun hmem => htaken first (List.mem_reverse.mp hmem) rfl⟩
      have hreverse := congrArg List.reverse hwhole
      rw [List.reverse_reverse, List.reverse_append, List.reverse_cons, List.append_assoc] at hreverse
      exact hreverse.symm
  · rintro ⟨rfl, hafter⟩
    have hpast : ∀ a ∈ after.reverse, decide (a ≠ sep) = true := by
      intro a ha
      exact decide_eq_true fun heq => hafter (heq ▸ List.mem_reverse.mp ha)
    rw [List.reverse_append, List.reverse_cons, List.append_assoc, List.singleton_append,
      List.dropWhile_append_of_pos hpast, List.takeWhile_append_of_pos hpast]
    simp

theorem cutLast?_eq_none_iff {xs : List α} : cutLast? sep xs = none ↔ sep ∉ xs := by
  constructor
  · intro h hmem
    obtain ⟨before, after, heq, hlast⟩ := List.eq_append_cons_of_mem (List.mem_reverse.mpr hmem)
    have hcut : cutLast? sep xs = some (after.reverse, before.reverse) := by
      refine cutLast?_eq_some_iff.mpr ⟨?_, fun hbefore => hlast (List.mem_reverse.mp hbefore)⟩
      rw [← List.reverse_reverse xs, heq]
      simp
    rw [hcut] at h
    cases h
  · intro h
    cases hcut : cutLast? sep xs with
    | none => rfl
    | some cut =>
      obtain ⟨heq, -⟩ := cutLast?_eq_some_iff.mp hcut
      exact absurd (heq ▸ List.mem_append_right _ List.mem_cons_self) h

/-- There is only one last separator. -/
theorem eq_of_append_cons_eq {before before' after after' : List α}
    (h : before ++ sep :: after = before' ++ sep :: after') (hafter : sep ∉ after)
    (hafter' : sep ∉ after') : before = before' ∧ after = after' := by
  have hcut : cutLast? sep (before ++ sep :: after) = some (before, after) :=
    cutLast?_eq_some_iff.mpr ⟨rfl, hafter⟩
  rw [cutLast?_eq_some_iff.mpr ⟨h, hafter'⟩] at hcut
  obtain ⟨hbefore, hafter⟩ := Prod.mk.inj (Option.some.inj hcut)
  exact ⟨hbefore.symm, hafter.symm⟩

end Pieces

/-- A name has an extension just when it is a stem, a dot and that extension, which has no dot. -/
theorem splitExtension_eq_iff {name stem extension : Bytes} :
    splitExtension name = (stem, some extension) ↔
      name = stem ++ Bytes.dot :: extension ∧ stem ≠ [] ∧ Bytes.dot ∉ extension := by
  unfold splitExtension
  cases hcut : Pieces.cutLast? Bytes.dot name with
  | none =>
    simp only [Prod.mk.injEq, reduceCtorEq, and_false, false_iff]
    rintro ⟨rfl, -⟩
    exact Pieces.cutLast?_eq_none_iff.mp hcut (List.mem_append_right _ List.mem_cons_self)
  | some cut =>
    obtain ⟨before, after⟩ := cut
    obtain ⟨rfl, hafter⟩ := Pieces.cutLast?_eq_some_iff.mp hcut
    by_cases hbefore : before = []
    · -- the only dot comes first, and is part of the name
      simp only [hbefore, if_true, Prod.mk.injEq, reduceCtorEq, and_false, false_iff]
      rintro ⟨heq, hstem, hdot⟩
      exact hstem (Pieces.eq_of_append_cons_eq heq hafter hdot).1.symm
    · simp only [hbefore, if_false, Prod.mk.injEq, Option.some.injEq]
      constructor
      · rintro ⟨rfl, rfl⟩
        exact ⟨rfl, hbefore, hafter⟩
      · rintro ⟨heq, -, hdot⟩
        exact Pieces.eq_of_append_cons_eq heq hafter hdot

/-- A path is a source just when its name is the stem, a dot and the extension, which has no dot. -/
theorem Source.matching?_eq_some_iff {path : Path} {extension : String} {source : Source} :
    Source.matching? path extension = some source ↔
      source.path = path ∧
        path.name? = some (source.stem ++ Bytes.dot :: Utf8.encode extension) ∧
        source.stem ≠ [] ∧ Bytes.dot ∉ Utf8.encode extension := by
  obtain ⟨sourcePath, stem⟩ := source
  unfold Source.matching? hasExtension Path.extension? Path.stem?
  cases hname : path.name? with
  | none => simp
  | some name =>
    have hsplit := @splitExtension_eq_iff name stem (Utf8.encode extension)
    rcases hparts : splitExtension name with ⟨before, after⟩
    rw [hparts, Prod.mk.injEq] at hsplit
    simp only [Option.bind_some, Option.map_some, hparts, decide_eq_true_eq, Option.some.injEq]
    rw [← hsplit]
    split_ifs with hext
    · simp only [Option.some.injEq, Source.mk.injEq, hext, and_true]
      exact and_congr_left fun _ => eq_comm
    · simp [hext]

end BatchVerify
