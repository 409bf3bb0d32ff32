import BatchVerify.Proofs.Json.Scalars
import BatchVerify.Proofs.Text.Blank
import BatchVerify.Verifier.Command

/-!
# What is kept of a failure, and what is told of it

A verifier that is run as a process keeps its standard error without the blanks around it, and the line
that describes a failure shows one line of it without the blanks around that. The two go together: what
is kept tells all that the whole would (`Status.withStderr_keptText`).
-/

namespace BatchVerify

/-! ## The description of a failure -/

namespace Status

/-- A failure is described by its exit code and what its standard error tells. -/
theorem describe_failed (code : Option Int) (stderr : Option String) :
    (Status.failed code stderr).describe =
      withStderr (Status.failed code none).describe stderr := by
  cases code <;> rfl

theorem withStderr_of_silent {text : String} (h : Text.lastLine? text.toList = none)
    (sentence : String) : withStderr sentence (some text) = sentence := by
  rw [withStderr, Option.bind_some, h]

theorem withStderr_of_telling {text : String} {line : List Char}
    (h : Text.lastLine? text.toList = some line) (sentence : String) :
    withStderr sentence (some text) = sentence ++ " (" ++ String.ofList line ++ ")" := by
  rw [withStderr, Option.bind_some, h]

/-- Nothing that a description tells is lost when the blanks around a text are. -/
theorem withStderr_keptText (sentence text : String) :
    withStderr sentence (keptText text) = withStderr sentence (some text) := by
  have hline := Text.lastLine?_trim text.toList
  unfold keptText
  dsimp only
  split_ifs with hnil
  · rw [hnil] at hline
    exact (withStderr_of_silent hline.symm sentence).symm
  · unfold withStderr
    rw [Option.bind_some, Option.bind_some, String.toList_ofList, hline]

/-- The part in parentheses is what the last line tells. -/
theorem eq_of_withStderr {sentence text part : String}
    (h : withStderr sentence (some text) = sentence ++ " (" ++ part ++ ")") :
    Text.lastLine? text.toList = some part.toList := by
  cases hline : Text.lastLine? text.toList with
  | none =>
    rw [withStderr_of_silent hline] at h
    have hlength := congrArg String.length h
    simp only [String.length_append] at hlength
    have hopen : (" (" : String).length = 2 := rfl
    omega
  | some line =>
    rw [withStderr_of_telling hline] at h
    have hlists := congrArg String.toList h
    simp only [String.toList_append, List.append_assoc] at hlists
    have hpart := List.append_cancel_left (List.append_cancel_left hlists)
    rw [← List.append_cancel_right hpart, String.toList_ofList]

theorem newline_not_mem_integer (value : Int) : '\n' ∉ (toString value).toList := by
  have hdigits (n : Nat) : '\n' ∉ Nat.toDigits 10 n := fun hmem =>
    absurd (Json.all_isDigit_toDigits n _ hmem) (by decide)
  cases value with
  | ofNat n =>
    rw [show toString (Int.ofNat n) = toString (n : Int) from rfl, Json.toList_toString_natCast]
    exact hdigits n
  | negSucc n =>
    rw [Json.toList_toString_negSucc]
    simpa using hdigits (n + 1)

theorem newline_not_mem_head (code : Option Int) :
    '\n' ∉ (Status.failed code none).describe.toList := by
  cases code with
  | none => decide
  | some code =>
    show '\n' ∉ ("exited with status " ++ toString code).toList
    rw [String.toList_append, List.mem_append, not_or]
    exact ⟨by decide, newline_not_mem_integer code⟩

end Status

/-- How the description of a failure goes with the text behind it. -/
structure Described (code : Option Int) (text : String) : Prop where
  /-- What is kept of the text describes the failure as the text itself does. -/
  kept : (Status.failed code (some text)).describe =
    (Status.failed code (keptText text)).describe
  oneLine : '\n' ∉ (Status.failed code (some text)).describe.toList
  /-- There is a part in parentheses just when the text is not all blank. -/
  tells_iff : (∃ part, (Status.failed code (some text)).describe =
      (Status.failed code none).describe ++ " (" ++ part ++ ")") ↔
    ∃ c ∈ text.toList, Text.isBlank c = false
  silent : (∀ c ∈ text.toList, Text.isBlank c = true) →
    (Status.failed code (some text)).describe = (Status.failed code none).describe
  /-- The part in parentheses is the last line that is not all blank, without the blanks around it. -/
  tells : ∀ part, (Status.failed code (some text)).describe =
      (Status.failed code none).describe ++ " (" ++ part ++ ")" →
    part ≠ "" ∧ ∃ before line after, Pieces.split '\n' text.toList = before ++ line :: after ∧
      (∃ c ∈ line, Text.isBlank c = false) ∧
      (∀ later ∈ after, ∀ c ∈ later, Text.isBlank c = true) ∧ Text.Trimmed line part.toList
  /-- Carriage returns before line ends may be taken for parts of them. -/
  ended : ((Text.endedLines text.toList).reverse.find? fun line =>
    line.any fun c => !Text.isBlank c).map Text.trim = Text.lastLine? text.toList

/-- Every failure with a text behind it is described so. -/
theorem described (code : Option Int) (text : String) : Described code text := by
  have hdescribe := Status.describe_failed code (some text)
  have hhead := Status.newline_not_mem_head code
  refine
    { kept := ?kept
      oneLine := ?oneLine
      tells_iff := ?tells_iff
      silent := ?silent
      tells := ?tells
      ended := Text.lastLine?_endedLines text.toList }
  case kept =>
    rw [hdescribe, Status.describe_failed code (keptText text), Status.withStderr_keptText]
  case oneLine =>
    rw [hdescribe]
    cases hline : Text.lastLine? text.toList with
    | none =>
      rwa [Status.withStderr_of_silent hline]
    | some part =>
      rw [Status.withStderr_of_telling hline]
      have hpart := Text.newline_not_mem_of_lastLine? hline
      simp [hhead, hpart]
  case tells_iff =>
    have htells : (∃ c ∈ text.toList, Text.isBlank c = false) ↔ Text.lastLine? text.toList ≠ none := by
      rw [ne_eq, Text.lastLine?_eq_none_iff]
      push Not
      simp
    rw [htells, hdescribe]
    constructor
    · rintro ⟨part, htold⟩ hnone
      rw [Status.eq_of_withStderr htold] at hnone
      cases hnone
    · intro hsome
      obtain ⟨line, hline⟩ := Option.ne_none_iff_exists'.mp hsome
      exact ⟨String.ofList line, Status.withStderr_of_telling hline _⟩
  case silent =>
    intro hblank
    rw [hdescribe, Status.withStderr_of_silent (Text.lastLine?_eq_none_iff.mpr hblank)]
  case tells =>
    intro part htold
    rw [hdescribe] at htold
    obtain ⟨before, line, after, hlines, hpart, htells, hafter⟩ :=
      Text.exists_of_lastLine? (Status.eq_of_withStderr htold)
    refine ⟨?_, before, line, after, hlines, htells, hafter, hpart ▸ Text.trimmed_trim line⟩
    rintro rfl
    obtain ⟨c, hmem, hc⟩ := htells
    rw [Text.trim_eq_nil_iff.mp hpart.symm c hmem] at hc
    cases hc

/-! ## What is kept of a failure -/

/-- What is kept of the standard error of a process that failed with a code. -/
structure Kept (capture : Bool) (ended : ProcessEnd) (code : Option Int) (stderr : Option String) :
    Prop where
  failed : ended.exitCode = code ∧ code ≠ some 0
  off : capture = false → stderr = none
  on : capture = true → stderr = keptText (Utf8.decodeLossy ended.stderr)
  bare : ∀ kept, stderr = some kept → kept ≠ "" ∧ Text.Bare kept.toList

theorem bare_of_keptText {text kept : String} (h : keptText text = some kept) :
    kept ≠ "" ∧ Text.Bare kept.toList := by
  unfold keptText at h
  dsimp only at h
  split_ifs at h with hnil
  obtain rfl := Option.some.inj h
  rw [String.toList_ofList]
  refine ⟨fun hempty => hnil ?_, Text.bare_trim text.toList⟩
  rw [← String.toList_ofList (l := Text.trim text.toList), hempty]
  rfl

theorem kept_of_status {capture : Bool} {ended : ProcessEnd} {code : Option Int}
    {stderr : Option String} (h : ended.status capture = .failed code stderr) :
    Kept capture ended code stderr := by
  unfold ProcessEnd.status at h
  split_ifs at h with hsuccess hcapture
  · cases h
    exact ⟨⟨rfl, hsuccess⟩, fun hoff => absurd (hcapture.symm.trans hoff) (by decide), fun _ => rfl,
      fun kept hkept => bare_of_keptText hkept⟩
  · cases h
    exact ⟨⟨rfl, hsuccess⟩, fun _ => rfl, fun hon => absurd hon hcapture,
      fun kept hkept => by cases hkept⟩

/-- Whatever a verifier writes to its standard error, a failure is described in one line, and what is
kept of it describes it as well as all of it would. -/
theorem failure_described :
    (∀ (code : Option Int) (text : String), Described code text) ∧
    ∀ {σ : Type} (launch : Invocation → σ → Except SystemError ProcessEnd × σ) (capture : Bool)
      (invocation : Invocation) (state : σ) (code : Option Int) (stderr : Option String),
      ((commandVerifier launch capture).run invocation state).1.status = .failed code stderr →
      ∃ ended, (launch invocation state).1 = .ok ended ∧ Kept capture ended code stderr := by
  refine ⟨described, ?_⟩
  intro σ launch capture invocation state code stderr hfailed
  simp only [commandVerifier] at hfailed
  rcases hlaunch : launch invocation state with ⟨cause | ended, after⟩ <;> rw [hlaunch] at hfailed
  · cases hfailed
  · exact ⟨ended, rfl, kept_of_status hfailed⟩

/-- A message between blank lines, with a carriage return at the end of each line. -/
theorem failure_described_returns :
    let text := "\r\n  warming up\r\n parse error \t\r\n \r\n"
    let ended : ProcessEnd := ⟨some 3, [], Utf8.encode text⟩
    let verifier : Verifier Unit := commandVerifier (fun _ state => (.ok ended, state)) true
    let status := (verifier.run ⟨Path.ofString "verify", []⟩ ()).1.status
    status = .failed (some 3) (some "warming up\r\n parse error") ∧
      status.describe = "exited with status 3 (parse error)" ∧
      Described (some 3) text ∧
      Kept true ended (some 3) (some "warming up\r\n parse error") := by
  intro text ended verifier status
  have hstatus : status = .failed (some 3) (some "warming up\r\n parse error") := by decide +kernel
  obtain ⟨ended', hended, hkept⟩ := failure_described.2 (fun _ state => (.ok ended, state)) true
    ⟨Path.ofString "verify", []⟩ () _ _ hstatus
  cases hended
  exact ⟨hstatus, by decide +kernel, failure_described.1 (some 3) text, hkept⟩

end BatchVerify
