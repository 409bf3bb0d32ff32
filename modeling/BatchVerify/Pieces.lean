/-!
# Separated pieces

A sequence is cut at a separator into pieces and put together again. `join_split` says that
cutting loses nothing; `cutLast?` cuts only at the last separator.
-/

namespace BatchVerify.Pieces

/-- The pieces between the separators; there is always at least one. -/
def split {α : Type} [DecidableEq α] (sep : α) : List α → List (List α)
  | [] => [[]]
  | a :: rest =>
    if a = sep then [] :: split sep rest
    else
      match split sep rest with
      | [] => [[a]]
      | piece :: pieces => (a :: piece) :: pieces

/-- The pieces with one separator between neighbours. -/
def join {α : Type} (sep : α) : List (List α) → List α
  | [] => []
  | [piece] => piece
  | piece :: next :: pieces => piece ++ sep :: join sep (next :: pieces)

/-- Cuts at the last separator, which belongs to neither side. -/
def cutLast? {α : Type} [DecidableEq α] (sep : α) (xs : List α) : Option (List α × List α) :=
  match xs.reverse.dropWhile (· ≠ sep) with
  | [] => none
  | _ :: before => some (before.reverse, (xs.reverse.takeWhile (· ≠ sep)).reverse)

theorem split_ne_nil {α : Type} [DecidableEq α] (sep : α) (xs : List α) : split sep xs ≠ [] := by
  cases xs with
  | nil => simp [split]
  | cons a rest => simp only [split]; repeat' split <;> simp

theorem join_cons_of_ne_nil {α : Type} (sep : α) (piece : List α) {pieces : List (List α)}
    (h : pieces ≠ []) : join sep (piece :: pieces) = piece ++ sep :: join sep pieces := by
  cases pieces with
  | nil => exact absurd rfl h
  | cons next rest => rfl

/-- Joining the pieces gives the sequence back. -/
theorem join_split {α : Type} [DecidableEq α] (sep : α) (xs : List α) :
    join sep (split sep xs) = xs := by
  induction xs with
  | nil => rfl
  | cons a rest ih =>
    by_cases h : a = sep
    · simp [split, h, join_cons_of_ne_nil sep [] (split_ne_nil sep rest), ih]
    · simp only [split, h, if_false]
      cases hs : split sep rest with
      | nil => exact absurd hs (split_ne_nil sep rest)
      | cons piece pieces =>
        rw [hs] at ih
        cases pieces <;> simpa [join] using ih

end BatchVerify.Pieces
