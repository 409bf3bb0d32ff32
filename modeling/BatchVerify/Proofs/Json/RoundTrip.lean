import BatchVerify.Proofs.Json.Scalars
import Mathlib.Data.List.TakeWhile

/-!
# Reading back what was written

The text of every value reads as that value (`Json.parse?_text`). The proof goes by recursion over the
value, over the items and fields after the first alongside: each part is read back whatever follows
it, as long as no number goes on.
-/

namespace BatchVerify.Json

/-! ## Gaps -/

theorem skipGap_cons {c : Char} (h : isGap c = false) (rest : List Char) :
    skipGap (c :: rest) = c :: rest := by
  simp [skipGap, h]

/-- A new line with its indentation is skipped. -/
theorem skipGap_lineBreak (level : Nat) (rest : List Char) :
    skipGap (lineBreak level ++ rest) = skipGap rest := by
  have hgap : ∀ c ∈ lineBreak level, isGap c = true := by
    intro c hc
    rcases List.mem_cons.mp hc with rfl | hblank
    · rfl
    · rw [List.eq_of_mem_replicate hblank]
      rfl
  exact List.dropWhile_append_of_pos hgap

/-- A value starts with a character that is no gap and closes no array. -/
theorem render_eq_cons (level : Nat) (value : Json) :
    ∃ c rest, render level value = c :: rest ∧ isGap c = false ∧ c ≠ ']' := by
  cases value with
  | null => exact ⟨_, _, rfl, by decide⟩
  | integer value =>
    obtain ⟨c, rest, hvalue, hfirst⟩ := toString_integer_eq_cons value
    have hblank : c ≠ ' ' := hfirst.ne (by decide)
    have hnewline : c ≠ '\n' := hfirst.ne (by decide)
    have hreturn : c ≠ '\r' := hfirst.ne (by decide)
    have htab : c ≠ '\t' := hfirst.ne (by decide)
    have hgap : isGap c = false := by simp [isGap, hblank, hnewline, hreturn, htab]
    exact ⟨c, rest, hvalue, hgap, hfirst.ne (by decide)⟩
  | string text => exact ⟨_, _, rfl, by decide⟩
  | array items => cases items <;> exact ⟨_, _, rfl, by decide⟩
  | object fields => cases fields <;> exact ⟨_, _, rfl, by decide⟩

theorem skipGap_render (level : Nat) (value : Json) (rest : List Char) :
    skipGap (render level value ++ rest) = render level value ++ rest := by
  obtain ⟨c, tail, hvalue, hgap, -⟩ := render_eq_cons level value
  rw [hvalue, List.cons_append]
  exact skipGap_cons hgap _

theorem skipGap_lineBreak_render (outer level : Nat) (value : Json) (rest : List Char) :
    skipGap (lineBreak outer ++ (render level value ++ rest)) = render level value ++ rest :=
  (skipGap_lineBreak outer _).trans (skipGap_render level value rest)

/-- A field is read from its name on. -/
theorem skipGap_quoted (name : String) (rest : List Char) :
    skipGap (quoted name ++ rest) = quoted name ++ rest := skipGap_cons rfl _

theorem skipGap_lineBreak_quoted (outer : Nat) (name : String) (rest : List Char) :
    skipGap (lineBreak outer ++ (quoted name ++ rest)) = quoted name ++ rest :=
  (skipGap_lineBreak outer _).trans (skipGap_quoted name rest)

theorem skipGap_blank (rest : List Char) : skipGap (' ' :: rest) = skipGap rest := rfl

theorem render_append_ne (level : Nat) (value : Json) (rest tail : List Char) :
    render level value ++ rest ≠ ']' :: tail := by
  obtain ⟨c, chars, hvalue, -, hclose⟩ := render_eq_cons level value
  rw [hvalue, List.cons_append]
  intro heq
  exact hclose (List.cons.inj heq).1

/-! ## Parts of a value -/

variable {depth : Nat} {text inner first between rest : List Char}

theorem readValue_string {chars : List Char} (h : skipGap text = '"' :: inner)
    (hread : readString inner = some (chars, rest)) :
    readValue (depth + 1) text = some (.string (String.ofList chars), rest) := by
  simp only [readValue, h, hread, Option.map_some]

/-- What starts with a sign or a digit is a number. -/
theorem readValue_integer {c : Char} {value : Int} (h : skipGap text = c :: inner)
    (hc : StartsNumber c) (hread : readInteger (c :: inner) = some (value, rest)) :
    readValue (depth + 1) text = some (.integer value, rest) := by
  have hother {d : Char} {tail : List Char} (hd : ¬ StartsNumber d) : c :: inner ≠ d :: tail :=
    fun heq => hc.ne hd (List.cons.inj heq).1
  simp only [readValue, h]
  split
  · next heq => exact absurd heq (hother (by decide))
  · next heq => exact absurd heq (hother (by decide))
  · next heq => exact absurd heq (hother (by decide))
  · next heq => exact absurd heq (hother (by decide))
  · rw [hread, Option.map_some]

/-- An array that is not empty: its first item, then the others. -/
theorem readValue_array {item : Json} {items : List Json} (h : skipGap text = '[' :: inner)
    (hinner : skipGap inner = first) (hfirst : ∀ tail, first ≠ ']' :: tail)
    (hitem : readValue depth first = some (item, between))
    (hitems : readItems depth between = some (items, rest)) :
    readValue (depth + 1) text = some (.array (item :: items), rest) := by
  simp only [readValue, h, hinner, hitem, hitems, Option.bind_eq_bind, Option.bind_some]

/-- An object that is not empty: its first field, then the others. -/
theorem readValue_object {field : String × Json} {fields : List (String × Json)}
    (h : skipGap text = '\x7b' :: inner) (hinner : skipGap inner = first)
    (hfirst : ∀ tail, first ≠ '\x7d' :: tail)
    (hfield : readField depth first = some (field, between))
    (hfields : readFields depth between = some (fields, rest)) :
    readValue (depth + 1) text = some (.object (field :: fields), rest) := by
  simp only [readValue, h, hinner, hfield, hfields, Option.bind_eq_bind, Option.bind_some]

theorem readItems_cons {item : Json} {items : List Json} (h : skipGap text = ',' :: inner)
    (hitem : readValue depth inner = some (item, between))
    (hitems : readItems depth between = some (items, rest)) :
    readItems (depth + 1) text = some (item :: items, rest) := by
  simp only [readItems, h, hitem, hitems, Option.bind_eq_bind, Option.bind_some]

theorem readFields_cons {field : String × Json} {fields : List (String × Json)}
    (h : skipGap text = ',' :: inner) (hfield : readField depth inner = some (field, between))
    (hfields : readFields depth between = some (fields, rest)) :
    readFields (depth + 1) text = some (field :: fields, rest) := by
  simp only [readFields, h, hfield, hfields, Option.bind_eq_bind, Option.bind_some]

/-- A field is a name in quotes, a colon and the value. -/
theorem readField_quoted {name : String} {value : Json}
    (h : skipGap text = quoted name ++ ':' :: between)
    (hvalue : readValue depth between = some (value, rest)) :
    readField (depth + 1) text = some ((name, value), rest) := by
  obtain ⟨inner, hquoted, hname⟩ := readString_quoted name (':' :: between)
  rw [hquoted] at h
  have hcolon : skipGap (':' :: between) = ':' :: between := skipGap_cons rfl between
  simp only [readField, h, hname, hcolon, hvalue, Option.bind_eq_bind, Option.bind_some,
    String.ofList_toList]

/-! ## Whole values -/

/-- After an item comes a comma or the end of the line. -/
theorem endsNumber_renderItems (level outer : Nat) (items : List Json) (rest : List Char) :
    EndsNumber (renderItems level items ++ (lineBreak outer ++ rest)) := by
  cases items <;> exact endsNumber_cons rfl _

/-- After the value of a field comes a comma or the end of the line. -/
theorem endsNumber_renderFields (level outer : Nat) (fields : List (String × Json))
    (rest : List Char) : EndsNumber (renderFields level fields ++ (lineBreak outer ++ rest)) := by
  cases fields <;> exact endsNumber_cons rfl _

mutual

/-- A value is read back by a reader that may go deeper than its text is long. -/
theorem readValue_render (level : Nat) (value : Json) {depth : Nat} {text rest : List Char}
    (htext : skipGap text = render level value ++ rest)
    (hdepth : (render level value).length < depth) (hrest : EndsNumber rest) :
    readValue depth text = some (value, rest) := by
  obtain ⟨depth, rfl⟩ := Nat.exists_eq_add_one_of_ne_zero (Nat.ne_zero_of_lt hdepth)
  match value with
  | .null => simp only [readValue, htext, render, List.cons_append, List.nil_append]
  | .integer value =>
    obtain ⟨c, digits, hvalue, hc⟩ := toString_integer_eq_cons value
    have hread := readInteger_toString value hrest
    rw [hvalue, List.cons_append] at hread
    rw [render, hvalue, List.cons_append] at htext
    exact readValue_integer htext hc hread
  | .string value =>
    obtain ⟨inner, hquoted, hread⟩ := readString_quoted value rest
    rw [render, hquoted] at htext
    rw [readValue_string htext hread, String.ofList_toList]
  | .array [] =>
    have hclose : skipGap (']' :: rest) = ']' :: rest := skipGap_cons rfl rest
    simp only [readValue, htext, render, List.cons_append, List.nil_append, hclose]
  | .array (item :: items) =>
    simp only [render, List.length_cons, List.length_append] at hdepth
    simp only [render, List.cons_append, List.append_assoc, List.nil_append] at htext
    have hfirst := readValue_render (level + 1) item (skipGap_render (level + 1) item _)
      (show _ < depth by omega) (endsNumber_renderItems (level + 1) level items (']' :: rest))
    exact readValue_array htext (skipGap_lineBreak_render _ _ _ _)
      (render_append_ne _ _ _) hfirst
      (readItems_renderItems (level + 1) level items (by omega))
  | .object [] =>
    have hclose : skipGap ('\x7d' :: rest) = '\x7d' :: rest := skipGap_cons rfl rest
    simp only [readValue, htext, render, List.cons_append, List.nil_append, hclose]
  | .object ((name, value) :: fields) =>
    simp only [render, List.length_cons, List.length_append] at hdepth
    simp only [render, List.cons_append, List.append_assoc, List.nil_append] at htext
    obtain ⟨depth, rfl⟩ := Nat.exists_eq_add_one_of_ne_zero (show depth ≠ 0 by omega)
    have hvalue := readValue_render (level + 1) value
      ((skipGap_blank _).trans (skipGap_render (level + 1) value _))
      (show _ < depth by omega) (endsNumber_renderFields (level + 1) level fields ('\x7d' :: rest))
    exact readValue_object htext (skipGap_lineBreak_quoted _ _ _) (by simp [quoted])
      (readField_quoted (skipGap_quoted _ _) hvalue)
      (readFields_renderFields (level + 1) level fields (by omega))

/-- The items after the first, up to the bracket on a line of its own. -/
theorem readItems_renderItems (level outer : Nat) (items : List Json) {depth : Nat}
    {rest : List Char} (hdepth : (renderItems level items).length < depth) :
    readItems depth (renderItems level items ++ (lineBreak outer ++ ']' :: rest)) =
      some (items, rest) := by
  obtain ⟨depth, rfl⟩ := Nat.exists_eq_add_one_of_ne_zero (Nat.ne_zero_of_lt hdepth)
  match items with
  | [] =>
    have hclose : skipGap (lineBreak outer ++ ']' :: rest) = ']' :: rest :=
      (skipGap_lineBreak outer _).trans (skipGap_cons rfl rest)
    simp only [renderItems, List.nil_append, readItems, hclose]
  | item :: items =>
    simp only [renderItems, List.length_cons, List.length_append] at hdepth
    simp only [renderItems, List.cons_append, List.append_assoc]
    have hitem := readValue_render level item (skipGap_lineBreak_render level level item _)
      (show _ < depth by omega) (endsNumber_renderItems level outer items (']' :: rest))
    exact readItems_cons (skipGap_cons rfl _) hitem
      (readItems_renderItems level outer items (by omega))

/-- The fields after the first, up to the brace on a line of its own. -/
theorem readFields_renderFields (level outer : Nat) (fields : List (String × Json)) {depth : Nat}
    {rest : List Char} (hdepth : (renderFields level fields).length < depth) :
    readFields depth (renderFields level fields ++ (lineBreak outer ++ '\x7d' :: rest)) =
      some (fields, rest) := by
  obtain ⟨depth, rfl⟩ := Nat.exists_eq_add_one_of_ne_zero (Nat.ne_zero_of_lt hdepth)
  match fields with
  | [] =>
    have hclose : skipGap (lineBreak outer ++ '\x7d' :: rest) = '\x7d' :: rest :=
      (skipGap_lineBreak outer _).trans (skipGap_cons rfl rest)
    simp only [renderFields, List.nil_append, readFields, hclose]
  | (name, value) :: fields =>
    simp only [renderFields, List.length_cons, List.length_append] at hdepth
    simp only [renderFields, List.cons_append, List.append_assoc]
    obtain ⟨depth, rfl⟩ := Nat.exists_eq_add_one_of_ne_zero (show depth ≠ 0 by omega)
    have hvalue := readValue_render level value
      ((skipGap_blank _).trans (skipGap_render level value _))
      (show _ < depth by omega) (endsNumber_renderFields level outer fields ('\x7d' :: rest))
    exact readFields_cons (skipGap_cons rfl _)
      (readField_quoted (skipGap_lineBreak_quoted level name _) hvalue)
      (readFields_renderFields level outer fields (by omega))

end

/-- The text of a value reads as that value, with gaps after it or none. -/
theorem parse?_text (value : Json) {gaps : String} (h : ∀ c ∈ gaps.toList, isGap c = true) :
    parse? (value.text ++ gaps) = some value := by
  have htext : (value.text ++ gaps).toList = value.render 0 ++ gaps.toList := by
    rw [text, String.toList_append, String.toList_ofList]
  have hlength : (value.render 0).length < 2 * (value.text ++ gaps).length + 2 := by
    rw [← String.length_toList, htext, List.length_append]
    omega
  have hends : EndsNumber gaps.toList := by
    intro c hc
    have hgap := h c (List.mem_of_mem_head? hc)
    unfold isGap at hgap
    simp at hgap
    rcases hgap with ((rfl | rfl) | rfl) | rfl <;> rfl
  have hread := readValue_render 0 value (skipGap_render 0 value gaps.toList) hlength hends
  have hend : skipGap gaps.toList = [] := List.dropWhile_eq_nil_iff.mpr h
  simp only [parse?, htext, hread, hend, if_true]

end BatchVerify.Json
