import BatchVerify.Proofs.Json.RoundTrip
import BatchVerify.Proofs.Text.Utf8
import BatchVerify.Report.File
import BatchVerify.Report.Reader

/-!
# Reports that are read back

A report file holds all of its report but bytes of names that are no text: what is read from it is the
report with its names made readable (`Report.read?_fileText`). So reports whose names are valid text
are told apart by their files (`Report.read?_saved`).
-/

namespace BatchVerify

/-! ## Readable names -/

namespace Utf8

/-- A name as a reader of text sees it. -/
def readable (name : Bytes) : Bytes := encode (decodeLossy name)

/-- The bytes of a text. -/
def Valid (bytes : Bytes) : Prop := ∃ text, bytes = encode text

theorem decodeLossy_encode (text : String) : decodeLossy (encode text) = text := by
  have hchars : (text.toList.map Part.char).map (fun part => part.char?.getD replacement) =
      text.toList := by
    rw [List.map_map]
    exact List.map_id text.toList
  rw [decodeLossy, parts_encode, hchars, String.ofList_toList]

theorem Valid.readable_eq {bytes : Bytes} (h : Valid bytes) : readable bytes = bytes := by
  obtain ⟨text, rfl⟩ := h
  rw [readable, decodeLossy_encode]

end Utf8

namespace Outcome

/-- An outcome with readable names. -/
def readable (outcome : Outcome) : Outcome where
  group := Utf8.readable outcome.group
  source := ⟨Utf8.readable outcome.source.bytes⟩
  target := ⟨Utf8.readable outcome.target.bytes⟩
  status := outcome.status

/-- The names of an outcome are valid text. -/
structure Valid (outcome : Outcome) : Prop where
  group : Utf8.Valid outcome.group
  source : Utf8.Valid outcome.source.bytes
  target : Utf8.Valid outcome.target.bytes

theorem Valid.readable_eq {outcome : Outcome} (h : outcome.Valid) : outcome.readable = outcome := by
  rw [readable, h.group.readable_eq, h.source.readable_eq, h.target.readable_eq]

end Outcome

namespace Report

/-- A report with readable names; all else is as it was. -/
def readable (report : Report) : Report :=
  { report with outcomes := report.outcomes.map Outcome.readable }

/-- The names in a report are valid text. -/
def Valid (report : Report) : Prop := ∀ outcome ∈ report.outcomes, outcome.Valid

theorem Valid.readable_eq {report : Report} (h : report.Valid) : report.readable = report := by
  have houtcomes : report.outcomes.map Outcome.readable = report.outcomes := by
    rw [List.map_congr_left fun outcome houtcome => (h outcome houtcome).readable_eq]
    exact List.map_id report.outcomes
  rw [readable, houtcomes]

end Report

/-! ## From JSON -/

/-- The fields of each status are found by their names among those of the outcome. -/
theorem Outcome.ofJson?_toJson (outcome : Outcome) :
    Outcome.ofJson? outcome.toJson = some outcome.readable := by
  obtain ⟨group, source, target, status⟩ := outcome
  cases status with
  | succeeded => rfl
  | failed exitCode stderr => cases exitCode <;> cases stderr <;> rfl
  | notStarted reason => rfl

theorem Outcome.mapM_ofJson? (outcomes : List Outcome) :
    (outcomes.map Outcome.toJson).mapM Outcome.ofJson? = some (outcomes.map Outcome.readable) := by
  induction outcomes with
  | nil => rfl
  | cons outcome outcomes ih =>
    rw [List.map_cons, List.mapM_cons, Outcome.ofJson?_toJson, ih]
    rfl

namespace Report

theorem ofJson?_toJson (report : Report) : ofJson? report.toJson = some report.readable := by
  show ((report.outcomes.map Outcome.toJson).mapM Outcome.ofJson?).bind _ = _
  rw [Outcome.mapM_ofJson?]
  rfl

/-- What is read from a report file is the report with readable names. -/
theorem read?_fileText (report : Report) :
    read? (Utf8.encode report.fileText) = some report.readable := by
  have hparse : Json.parse? report.fileText = some report.toJson :=
    Json.parse?_text report.toJson (by simp [Json.isGap])
  have hread := ofJson?_toJson report
  simp only [read?, Utf8.decode?_encode, hparse, hread, Option.bind_eq_bind, Option.bind_some]

/-- The text of a report is one value and a line end after it; the value is read as the report with
readable names, and so is what is written to a file. Reports with names that are valid text have
different texts if they differ at all. -/
theorem read?_saved :
    (∀ report : Report, ∃ text value, report.fileText = text ++ "\n" ∧
      Json.parse? text = some value ∧ ofJson? value = some report.readable) ∧
    (∀ {σ : Type} (report : Report) (write : Path → Bytes → σ → Except SystemError σ) (path : Path)
      (state saved : σ), report.save write path state = .ok saved →
      ∃ content, write path content state = .ok saved ∧ content = Utf8.encode report.fileText ∧
        read? content = some report.readable) ∧
    (∀ report report' : Report, report.Valid → report'.Valid → report ≠ report' →
      report.fileText ≠ report'.fileText) := by
  refine ⟨fun report => ?_, ?_, ?_⟩
  · have hparse : Json.parse? (report.toJson.text ++ "") = some report.toJson :=
      Json.parse?_text report.toJson (by simp)
    rw [String.append_empty] at hparse
    exact ⟨report.toJson.text, report.toJson, rfl, hparse, ofJson?_toJson report⟩
  · intro σ report write path state saved hsaved
    refine ⟨_, ?_, rfl, read?_fileText report⟩
    unfold save at hsaved
    split at hsaved
    · next hwrite =>
      cases hsaved
      exact hwrite
    · cases hsaved
  · intro report report' hvalid hvalid' hne htext
    have hread := read?_fileText report
    rw [htext, read?_fileText report', hvalid.readable_eq, hvalid'.readable_eq] at hread
    exact hne (Option.some.inj hread).symm

/-- A group with a stray byte in its name; a source that a signal ended without a word, and one with
much to be escaped in what it said. -/
theorem read?_saved_stray :
    let group : Bytes := [0x61, 0xFF]
    let source : Path := ⟨Utf8.encode "d/" ++ group ++ Utf8.encode "/\"x\\\n.bpl"⟩
    let outcome (stderr : Option String) : Outcome := ⟨group, source, source, .failed (some (-9)) stderr⟩
    let report : Report :=
      { groupsVisited := 1, processed := 2, failed := 2
        outcomes := [outcome (some ""), outcome (some "\t\"\\u0041\" \x01é\r\n")] }
    let named (stderr : Option String) : Report :=
      { processed := 1, failed := 1
        outcomes := [⟨Utf8.encode "é", ⟨Utf8.encode "a"⟩, ⟨[]⟩, .failed none stderr⟩] }
    let write : Path → Bytes → Bytes → Except SystemError Bytes := fun _ content _ => .ok content
    let saved := Utf8.encode report.fileText
    report.save write ⟨[]⟩ [] = .ok saved ∧ read? saved = some report.readable ∧
      report.readable ≠ report ∧
      (named none).Valid ∧ (named (some "")).Valid ∧ named none ≠ named (some "") ∧
      (named none).fileText ≠ (named (some "")).fileText := by
  intro group source outcome report named write saved
  have hsaved : report.save write ⟨[]⟩ [] = .ok saved := rfl
  have hvalid (stderr : Option String) : (named stderr).Valid := by
    intro outcome houtcome
    rw [List.mem_singleton.mp houtcome]
    exact ⟨⟨"é", rfl⟩, ⟨"a", rfl⟩, ⟨"", rfl⟩⟩
  have hne : named none ≠ named (some "") := by decide
  obtain ⟨content, -, hcontent, hread⟩ := read?_saved.2.1 report write ⟨[]⟩ [] saved hsaved
  rw [hcontent] at hread
  refine ⟨hsaved, hread, by decide +kernel, hvalid none, hvalid (some ""), hne, ?_⟩
  exact read?_saved.2.2 _ _ (hvalid none) (hvalid (some "")) hne

end Report

end BatchVerify
