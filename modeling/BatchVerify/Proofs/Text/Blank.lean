import BatchVerify.Proofs.Path.Extension
import BatchVerify.Text.Blank
import Mathlib.Data.List.DropRight

/-!
# Blanks around a text and its lines

What `Text.trim` leaves neither begins nor ends with a blank (`Text.trimmed_trim`). The last line that
holds anything else tells as much of a text as of the text without the blanks around it
(`Text.lastLine?_trim`): a blank at either end, a line end among them, changes no line by more than the
blanks around that line.
-/

namespace BatchVerify

namespace Pieces

variable {α : Type} [DecidableEq α] {sep : α}

/-- What is no separator belongs to the last piece of what comes before it. -/
theorem split_concat_of_ne {c : α} (h : c ≠ sep) (xs : List α) :
    ∃ pieces last, split sep xs = pieces ++ [last] ∧
      split sep (xs ++ [c]) = pieces ++ [last ++ [c]] := by
  have hlast {last : List α} (hmem : sep ∉ last) : split sep (last ++ [c]) = [last ++ [c]] :=
    split_of_not_mem _ (by simp [hmem, Ne.symm h])
  cases hcut : cutLast? sep xs with
  | none =>
    have hmem := cutLast?_eq_none_iff.mp hcut
    exact ⟨[], xs, split_of_not_mem xs hmem, hlast hmem⟩
  | some cut =>
    obtain ⟨rfl, hmem⟩ := cutLast?_eq_some_iff.mp hcut
    refine ⟨split sep cut.1, cut.2, ?_, ?_⟩
    · rw [split_append_cons, split_of_not_mem _ hmem]
    · rw [List.append_assoc, List.cons_append, split_append_cons, hlast hmem]

end Pieces

namespace Text

variable {text : List Char} {c : Char}

/-! ## Trimming -/

/-- A text that neither begins nor ends with a blank. -/
structure Bare (text : List Char) : Prop where
  first : ∀ c ∈ text.head?, isBlank c = false
  last : ∀ c ∈ text.getLast?, isBlank c = false

/-- A text without the blanks around it. -/
structure Trimmed (text part : List Char) : Prop where
  around : ∃ before after, text = before ++ part ++ after ∧
    (∀ c ∈ before, isBlank c = true) ∧ ∀ c ∈ after, isBlank c = true
  bare : Bare part

theorem trimEnd_eq (text : List Char) : trimEnd text = text.rdropWhile isBlank := rfl

theorem bare_trim (text : List Char) : Bare (trim text) where
  first := by
    intro c hc
    -- what the end loses leaves the beginning as it is
    obtain ⟨rest, hrest⟩ := List.rdropWhile_prefix isBlank (trimStart text)
    have hstart := List.head?_dropWhile_not isBlank text
    rw [show text.dropWhile isBlank = trim text ++ rest from hrest.symm, List.head?_append,
      Option.mem_def.mp hc] at hstart
    simpa using hstart
  last := by
    intro c hc
    obtain ⟨hne, hlast⟩ := List.mem_getLast?_eq_getLast hc
    rw [hlast]
    exact Bool.eq_false_iff.mpr (List.rdropWhile_last_not isBlank (trimStart text) hne)

theorem trimmed_trim (text : List Char) : Trimmed text (trim text) := by
  unfold trim
  rw [trimEnd_eq]
  refine ⟨⟨text.takeWhile isBlank, (trimStart text).rtakeWhile isBlank, ?_, ?_, ?_⟩, ?_⟩
  · rw [List.append_assoc, List.rdropWhile_append_rtakeWhile]
    exact List.takeWhile_append_dropWhile.symm
  · exact fun c hc => List.mem_takeWhile_imp hc
  · exact fun c hc => List.mem_rtakeWhile_imp hc
  · exact bare_trim text

theorem trim_cons_of_blank (h : isBlank c = true) (text : List Char) : trim (c :: text) = trim text := by
  unfold trim trimStart
  rw [List.dropWhile_cons_of_pos h]

theorem trim_concat_of_blank (h : isBlank c = true) (text : List Char) :
    trim (text ++ [c]) = trim text := by
  unfold trim trimStart
  rw [List.dropWhile_append, trimEnd_eq, trimEnd_eq]
  split_ifs with hnil
  · rw [List.dropWhile_cons_of_pos h, List.isEmpty_iff.mp hnil]
    rfl
  · rw [List.rdropWhile_concat_pos _ _ _ h]

theorem trim_eq_nil_iff : trim text = [] ↔ ∀ c ∈ text, isBlank c = true := by
  constructor
  · intro h
    obtain ⟨before, after, htext, hbefore, hafter⟩ := (trimmed_trim text).around
    rw [h, List.append_nil] at htext
    rw [htext]
    exact List.forall_mem_append.mpr ⟨hbefore, hafter⟩
  · intro h
    rw [trim, trimStart, List.dropWhile_eq_nil_iff.mpr h]
    rfl

/-! ## Lines -/

/-- What lines tell: each without the blanks around it, if anything is left. -/
def telling (lines : List (List Char)) : List (List Char) := (lines.map trim).filter (· ≠ [])

theorem telling_append (lines lines' : List (List Char)) :
    telling (lines ++ lines') = telling lines ++ telling lines' := by
  unfold telling
  rw [List.map_append, List.filter_append]

/-- What the lines of a text tell. -/
def tellingLines (text : List Char) : List (List Char) := telling (lines text)

/-- The last of some lines that tells anything. -/
theorem find?_telling (lines : List (List Char)) :
    (lines.reverse.find? fun line => line.any fun c => !isBlank c).map trim =
      (telling lines).getLast? := by
  have htells : (fun line : List Char => line.any fun c => !isBlank c) =
      (fun part => decide (part ≠ [])) ∘ trim := by
    funext line
    rw [Bool.eq_iff_iff, Function.comp_apply, decide_eq_true_iff, ne_eq, trim_eq_nil_iff]
    simp
  rw [htells, ← List.find?_map, ← List.head?_filter, List.map_reverse, List.filter_reverse,
    List.head?_reverse, telling]

theorem lastLine?_eq (text : List Char) : lastLine? text = (tellingLines text).getLast? :=
  find?_telling (lines text)

theorem tellingLines_cons (h : isBlank c = true) (text : List Char) :
    tellingLines (c :: text) = tellingLines text := by
  unfold tellingLines telling lines
  by_cases hend : c = '\n'
  · rw [Pieces.split, if_pos hend]
    rfl
  · obtain ⟨first, rest, hlines⟩ := List.exists_cons_of_ne_nil (Pieces.split_ne_nil '\n' text)
    rw [Pieces.split, if_neg hend, hlines, List.map_cons, List.map_cons, trim_cons_of_blank h]

theorem tellingLines_concat (h : isBlank c = true) (text : List Char) :
    tellingLines (text ++ [c]) = tellingLines text := by
  unfold tellingLines lines
  by_cases hend : c = '\n'
  · rw [hend, Pieces.split_append_cons, telling_append]
    exact List.append_nil _
  · obtain ⟨init, last, hlines, hlines'⟩ := Pieces.split_concat_of_ne hend text
    rw [hlines, hlines', telling_append, telling_append]
    unfold telling
    rw [List.map_singleton, trim_concat_of_blank h, List.map_singleton]

/-- The blanks around a text are nothing to its lines. -/
theorem tellingLines_append {before after : List Char} (hbefore : ∀ c ∈ before, isBlank c = true)
    (hafter : ∀ c ∈ after, isBlank c = true) (text : List Char) :
    tellingLines (before ++ text ++ after) = tellingLines text := by
  induction after using List.reverseRecOn with
  | nil =>
    rw [List.append_nil]
    induction before with
    | nil => rfl
    | cons c before ih =>
      obtain ⟨hc, hrest⟩ := List.forall_mem_cons.mp hbefore
      rw [List.cons_append, tellingLines_cons hc, ih hrest]
  | append_singleton after c ih =>
    obtain ⟨hrest, hc⟩ := List.forall_mem_append.mp hafter
    rw [← List.append_assoc, tellingLines_concat (hc c List.mem_cons_self), ih hrest]

theorem tellingLines_trim (text : List Char) : tellingLines (trim text) = tellingLines text := by
  obtain ⟨before, after, htext, hbefore, hafter⟩ := (trimmed_trim text).around
  conv_rhs => rw [htext]
  exact (tellingLines_append hbefore hafter _).symm

/-- A text tells something in one of its lines unless it is all blank. -/
theorem tellingLines_eq_nil_iff : tellingLines text = [] ↔ ∀ c ∈ text, isBlank c = true := by
  rw [← trim_eq_nil_iff, ← tellingLines_trim]
  constructor
  · intro hsilent
    by_contra hne
    obtain ⟨init, c, htrim⟩ := (List.eq_nil_or_concat _).resolve_left hne
    rw [List.concat_eq_append] at htrim
    -- the last line of what is left ends with the last character of it
    have hc : isBlank c = false := (bare_trim text).last c (by simp [htrim])
    have hend : c ≠ '\n' := by
      rintro rfl
      exact absurd hc (by decide)
    obtain ⟨pieces, last, -, hlines⟩ := Pieces.split_concat_of_ne hend init
    have htells : trim (last ++ [c]) ≠ [] := by
      rw [ne_eq, trim_eq_nil_iff]
      intro hall
      rw [hall c (by simp)] at hc
      cases hc
    have hmem : trim (last ++ [c]) ∈ tellingLines (trim text) := by
      refine List.mem_filter.mpr ⟨List.mem_map_of_mem ?_, decide_eq_true htells⟩
      rw [htrim, lines, hlines]
      simp
    rw [hsilent] at hmem
    cases hmem
  · intro htrim
    rw [htrim]
    rfl

/-- The last line that tells anything is one of the text without the blanks around it. -/
theorem lastLine?_trim (text : List Char) : lastLine? (trim text) = lastLine? text := by
  rw [lastLine?_eq, lastLine?_eq, tellingLines_trim]

theorem lastLine?_eq_none_iff : lastLine? text = none ↔ ∀ c ∈ text, isBlank c = true := by
  rw [lastLine?_eq, List.getLast?_eq_none_iff, tellingLines_eq_nil_iff]

/-- What the last line tells is a line without the blanks around it, and all lines after that one are
blank. -/
theorem exists_of_lastLine? {part : List Char} (h : lastLine? text = some part) :
    ∃ before line after, Pieces.split '\n' text = before ++ line :: after ∧ part = trim line ∧
      (∃ c ∈ line, isBlank c = false) ∧ ∀ later ∈ after, ∀ c ∈ later, isBlank c = true := by
  obtain ⟨line, hfind, rfl⟩ := Option.map_eq_some_iff.mp h
  obtain ⟨htells, after, before, hlines, hafter⟩ := List.find?_eq_some_iff_append.mp hfind
  refine ⟨before.reverse, line, after.reverse, ?_, rfl, by simpa using htells, ?_⟩
  · have hreverse := congrArg List.reverse hlines
    rw [List.reverse_reverse] at hreverse
    rw [show Pieces.split '\n' text = _ from hreverse]
    simp
  · simpa using hafter

theorem newline_not_mem_of_lastLine? {part : List Char} (h : lastLine? text = some part) :
    '\n' ∉ part := by
  obtain ⟨before, line, after, hlines, rfl, -, -⟩ := exists_of_lastLine? h
  have hline : line ∈ Pieces.split '\n' text := by
    rw [hlines]
    exact List.mem_append_right _ List.mem_cons_self
  obtain ⟨start, rest, htrim, -, -⟩ := (trimmed_trim line).around
  intro hmem
  refine Pieces.not_mem_of_mem_split hline ?_
  rw [htrim]
  exact List.mem_append_left _ (List.mem_append_right _ hmem)

/-! ## Lines with their ends taken off -/

/-- A line without the carriage return at its end. -/
def dropReturn (line : List Char) : List Char :=
  if line.getLast? = some '\r' then line.dropLast else line

/-- The lines of a text, each without its end: a line feed, and a carriage return if there is one before
it. What follows the last line feed is a line if it is not empty. -/
def endedLines (text : List Char) : List (List Char) :=
  (lines text).dropLast.map dropReturn ++ (lines text).getLast?.toList.filter (· ≠ [])

theorem trim_dropReturn (line : List Char) : trim (dropReturn line) = trim line := by
  unfold dropReturn
  split_ifs with h
  · obtain ⟨init, rfl⟩ := List.getLast?_eq_some_iff.mp h
    rw [List.dropLast_concat, trim_concat_of_blank (by decide)]
  · rfl

/-- How the ends of lines are taken off makes no difference to what the last line tells. -/
theorem lastLine?_endedLines (text : List Char) :
    ((endedLines text).reverse.find? fun line => line.any fun c => !isBlank c).map trim =
      lastLine? text := by
  obtain ⟨init, last, hlines⟩ :=
    (List.eq_nil_or_concat (lines text)).resolve_left (Pieces.split_ne_nil _ text)
  rw [List.concat_eq_append] at hlines
  have hinit : telling (init.map dropReturn) = telling init := by
    unfold telling
    rw [List.map_map, show trim ∘ dropReturn = trim from funext trim_dropReturn]
  -- an empty line tells nothing, so it may be left out
  have hlast : telling ([last].filter (· ≠ [])) = telling [last] := by
    by_cases hempty : last = []
    · rw [hempty]
      rfl
    · rw [List.filter_singleton, decide_eq_true hempty]
      rfl
  rw [find?_telling, lastLine?_eq, tellingLines, endedLines, hlines, List.dropLast_concat,
    List.getLast?_concat, Option.toList_some, telling_append, telling_append, hinit, hlast]

end Text

end BatchVerify
