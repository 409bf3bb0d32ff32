import BatchVerify.Proofs.Config.Overrides

/-!
# What a configuration is loaded as

Each field of a loaded configuration is settled by the first of its sources that has it: the
override, the document, the default (`Config.Resolves`). The extensions have no override; they are
normalised once with the file and once more with the run. `Config.load_resolves` tells when loading
succeeds, what it gives then, and which fault it fails with otherwise.
-/

namespace BatchVerify

open Toml (Node)

/-- A value is the override if there is one; else it is what is written, or the default. -/
def Schema.Settled {α : Type} (override? : Option α) (reads : Node → α → Prop) (default : α)
    (node? : Option Node) (value : α) : Prop :=
  match override? with
  | some given => value = given
  | none => Holds reads default node? value

theorem Schema.settled_getD {α : Type} {reads : Node → α → Prop} {default written : α}
    {node? : Option Node} (override? : Option α) (h : Holds reads default node? written) :
    Settled override? reads default node? (override?.getD written) := by
  cases override? with
  | none => exact h
  | some given => exact rfl

namespace Config

open Schema

/-- Where each field of a loaded configuration comes from, the extensions apart. -/
structure Resolves (overrides : Overrides) (document : Node) (config : Config) : Prop where
  program : Settled overrides.verifier IsPath ({} : VerifierSettings).program
    (written? document "verifier" "program") config.verifier.program
  modeFlag : Holds IsText ({} : VerifierSettings).modeFlag (written? document "verifier" "mode_flag")
    config.verifier.modeFlag
  timeLimit : Settled overrides.timeLimit IsWord ({} : VerifierSettings).timeLimit
    (written? document "verifier" "time_limit_secs") config.verifier.timeLimit
  outputRoot : Settled overrides.outputRoot IsPath ({} : Layout).outputRoot
    (written? document "layout" "output_root") config.layout.outputRoot
  onError : Settled overrides.onError IsPolicy ({} : RunSettings).onError
    (written? document "run" "on_error") config.run.onError
  captureStderr : Holds IsFlag ({} : RunSettings).captureStderr
    (written? document "run" "capture_stderr") config.run.captureStderr

/-- The fault that validation stops at: that of the program, else that of the source extension, else
that of the target extension. -/
inductive FirstFault (noProgram : Prop) (sourceExtension targetExtension : String) :
    ConfigFault → Prop
  | program (h : noProgram) : FirstFault noProgram sourceExtension targetExtension .emptyProgram
  | source {fault : ConfigFault} (h : ¬ noProgram)
    (hsource : normalizeExtension "layout.source_extension" sourceExtension = .error fault) :
    FirstFault noProgram sourceExtension targetExtension fault
  | target {fault : ConfigFault} {source : String} (h : ¬ noProgram)
    (hsource : normalizeExtension "layout.source_extension" sourceExtension = .ok source)
    (htarget : normalizeExtension "layout.target_extension" targetExtension = .error fault) :
    FirstFault noProgram sourceExtension targetExtension fault

variable {config parsed : Config} {overrides : Overrides} {text : String} {failure : Failure}

/-! ## Validation with the overrides on -/

theorem validated_eq_error_iff : config.validated = .error failure ↔
    ∃ fault, failure = .config fault ∧ FirstFault (config.verifier.program.bytes = [])
      config.layout.sourceExtension config.layout.targetExtension fault := by
  unfold validated validate normalize
  constructor
  · intro h
    by_cases hprogram : config.verifier.program.bytes = []
    · rw [if_pos hprogram] at h
      cases h
      exact ⟨_, rfl, .program hprogram⟩
    rw [if_neg hprogram] at h
    have hafter := config.layout.normalizing
    generalize config.layout.normalize = after at h hafter
    cases hafter with
    | sourceRefused hsource =>
      cases h
      exact ⟨_, rfl, .source hprogram hsource⟩
    | targetRefused hsource htarget =>
      cases h
      exact ⟨_, rfl, .target hprogram hsource htarget⟩
    | valid _ _ => cases h
  · unfold Layout.normalize
    rintro ⟨fault, rfl, hfault⟩
    cases hfault with
    | program hprogram => rw [if_pos hprogram]
    | source hprogram hsource => rw [if_neg hprogram, hsource]
    | target hprogram hsource htarget =>
      rw [if_neg hprogram, hsource]
      dsimp only
      rw [htarget]

/-- Where the program is there, only an override can make it empty. -/
theorem program_apply_eq_nil_iff (hprogram : parsed.verifier.program.bytes ≠ []) :
    (overrides.apply parsed).verifier.program.bytes = [] ↔ overrides.verifier = some ⟨[]⟩ := by
  show (overrides.verifier.getD parsed.verifier.program).bytes = [] ↔ _
  cases overrides.verifier with
  | none => simpa using hprogram
  | some program =>
    obtain ⟨bytes⟩ := program
    simp

/-- With the overrides on, each extension is normalised as the file left it. -/
theorem validated_apply_eq_ok_iff (hprogram : parsed.verifier.program.bytes ≠ []) :
    (overrides.apply parsed).validated = .ok config ↔
      overrides.verifier ≠ some ⟨[]⟩ ∧
        ∃ source target,
          normalizeExtension "layout.source_extension" parsed.layout.sourceExtension = .ok source ∧
          normalizeExtension "layout.target_extension" parsed.layout.targetExtension = .ok target ∧
          config = { overrides.apply parsed with
            layout := { (overrides.apply parsed).layout with
              sourceExtension := source
              targetExtension := target } } := by
  rw [validated_eq_ok_iff, validate_eq_ok_iff, ne_eq, program_apply_eq_nil_iff hprogram]
  exact Iff.rfl

theorem validated_apply_eq_error_iff (hprogram : parsed.verifier.program.bytes ≠ []) :
    (overrides.apply parsed).validated = .error failure ↔
      ∃ fault, failure = .config fault ∧ FirstFault (overrides.verifier = some ⟨[]⟩)
        parsed.layout.sourceExtension parsed.layout.targetExtension fault := by
  rw [validated_eq_error_iff, program_apply_eq_nil_iff hprogram]
  exact Iff.rfl

/-! ## Loading -/

/-- What a text is parsed as is what its document writes, with a program and proper extensions. -/
theorem exists_document_of_parse (h : parse text = .ok parsed) :
    ∃ document written, Toml.parse? text = some document ∧ IsConfig document written ∧
      Normalizes written parsed := by
  cases hdocument : Toml.parse? text with
  | none =>
    rw [parse, hdocument] at h
    cases h
  | some document =>
    obtain ⟨written, hfits, hnormal⟩ := (parse_eq_ok_iff hdocument parsed).mp h
    exact ⟨document, written, rfl, hfits, hnormal⟩

theorem program_of_parse (h : parse text = .ok parsed) : parsed.verifier.program.bytes ≠ [] := by
  obtain ⟨document, written, -, -, hnormal⟩ := exists_document_of_parse h
  rw [hnormal.rest]
  exact hnormal.program

/-- With the overrides on what a document writes, each field has come from its first source. -/
theorem resolves_of_parse (h : parse text = .ok parsed)
    (hvalid : (overrides.apply parsed).validated = .ok config) :
    ∃ document, Toml.parse? text = some document ∧ config.Resolves overrides document := by
  obtain ⟨document, written, hdocument, hfits, hnormal⟩ := exists_document_of_parse h
  obtain ⟨-, source, target, -, -, rfl⟩ := (validated_apply_eq_ok_iff (program_of_parse h)).mp hvalid
  refine ⟨document, hdocument, ?_⟩
  have hfills := hfits.fills
  rw [hnormal.rest]
  exact
    { program := settled_getD overrides.verifier hfills.program
      modeFlag := hfills.modeFlag
      timeLimit := settled_getD overrides.timeLimit hfills.timeLimit
      outputRoot := settled_getD overrides.outputRoot hfills.outputRoot
      onError := settled_getD overrides.onError hfills.onError
      captureStderr := hfills.captureStderr }

/-- A run is configured by what its file is parsed as, with the overrides on and validated. -/
theorem load_eq_ok_iff {read : Path → FileContent} {path : Path}
    (h : read path = .bytes (Utf8.encode text)) : load read (some path) overrides = .ok config ↔
      ∃ parsed, parse text = .ok parsed ∧ (overrides.apply parsed).validated = .ok config := by
  rw [load_file_overridden h]
  cases parse text <;> simp [Except.bind]

/-- A fault of the file comes before those that the overrides bring. -/
theorem load_eq_error_iff {read : Path → FileContent} {path : Path}
    (h : read path = .bytes (Utf8.encode text)) : load read (some path) overrides = .error failure ↔
      parse text = .error failure ∨
        ∃ parsed, parse text = .ok parsed ∧ (overrides.apply parsed).validated = .error failure := by
  rw [load_file_overridden h]
  cases parse text <;> simp [Except.bind]

/-- The defaults with the overrides on are valid unless the verifier is replaced by an empty one. -/
theorem load_none_eq (read : Path → FileContent) (overrides : Overrides) :
    load read none overrides =
      if overrides.verifier = some ⟨[]⟩ then .error (.config .emptyProgram)
      else .ok (overrides.apply {}) := by
  have hprogram : ({} : Config).verifier.program.bytes ≠ [] := by decide +kernel
  show (overrides.apply {}).validated = _
  split_ifs with hverifier
  · exact (validated_apply_eq_error_iff hprogram).mpr ⟨_, rfl, .program hverifier⟩
  · exact (validated_apply_eq_ok_iff hprogram).mpr
      ⟨hverifier, "bpl", "smt2", by decide, by decide, rfl⟩

/-- A file is loaded just when its text is parsed, no empty verifier is given, and both extensions can
be normalised once more. Each field is then settled by the first of its sources; a fault of the text
comes before all others. Without a file the defaults take its place. -/
theorem load_resolves {read : Path → FileContent} {path : Path} {text : String}
    (h : read path = .bytes (Utf8.encode text)) (overrides : Overrides) :
    ((∃ config, load read (some path) overrides = .ok config) ↔
      ∃ parsed, parse text = .ok parsed ∧ overrides.verifier ≠ some ⟨[]⟩ ∧
        ∃ source target,
          normalizeExtension "layout.source_extension" parsed.layout.sourceExtension = .ok source ∧
          normalizeExtension "layout.target_extension" parsed.layout.targetExtension = .ok target) ∧
    (∀ config, load read (some path) overrides = .ok config →
      ∃ document parsed, Toml.parse? text = some document ∧ parse text = .ok parsed ∧
        config.Resolves overrides document ∧
        normalizeExtension "layout.source_extension" parsed.layout.sourceExtension =
          .ok config.layout.sourceExtension ∧
        normalizeExtension "layout.target_extension" parsed.layout.targetExtension =
          .ok config.layout.targetExtension) ∧
    (∀ failure, load read (some path) overrides = .error failure ↔
      parse text = .error failure ∨
        ∃ parsed fault, parse text = .ok parsed ∧ failure = .config fault ∧
          FirstFault (overrides.verifier = some ⟨[]⟩) parsed.layout.sourceExtension
            parsed.layout.targetExtension fault) ∧
    load read none overrides =
      if overrides.verifier = some ⟨[]⟩ then .error (.config .emptyProgram)
      else .ok
        { verifier :=
            { program := overrides.verifier.getD ({} : VerifierSettings).program
              timeLimit := overrides.timeLimit.getD ({} : VerifierSettings).timeLimit }
          layout := { outputRoot := overrides.outputRoot.getD ({} : Layout).outputRoot }
          run := { onError := overrides.onError.getD ({} : RunSettings).onError } } := by
  refine ⟨⟨?parses, ?loads⟩, ?resolved, fun failure => ⟨?told, ?fails⟩, load_none_eq read overrides⟩
  case parses =>
    rintro ⟨config, hload⟩
    obtain ⟨parsed, hparse, hvalid⟩ := (load_eq_ok_iff h).mp hload
    obtain ⟨hverifier, source, target, hsource, htarget, -⟩ :=
      (validated_apply_eq_ok_iff (program_of_parse hparse)).mp hvalid
    exact ⟨parsed, hparse, hverifier, source, target, hsource, htarget⟩
  case loads =>
    rintro ⟨parsed, hparse, hverifier, source, target, hsource, htarget⟩
    have hvalid := (validated_apply_eq_ok_iff (program_of_parse hparse)).mpr
      ⟨hverifier, source, target, hsource, htarget, rfl⟩
    exact ⟨_, (load_eq_ok_iff h).mpr ⟨parsed, hparse, hvalid⟩⟩
  case resolved =>
    intro config hload
    obtain ⟨parsed, hparse, hvalid⟩ := (load_eq_ok_iff h).mp hload
    obtain ⟨document, hdocument, hresolves⟩ := resolves_of_parse hparse hvalid
    obtain ⟨-, source, target, hsource, htarget, rfl⟩ :=
      (validated_apply_eq_ok_iff (program_of_parse hparse)).mp hvalid
    exact ⟨document, parsed, hdocument, hparse, hresolves, hsource, htarget⟩
  case told =>
    intro hload
    rcases (load_eq_error_iff h).mp hload with hparse | ⟨parsed, hparse, hinvalid⟩
    · exact Or.inl hparse
    · obtain ⟨fault, hfailure, hfault⟩ :=
        (validated_apply_eq_error_iff (program_of_parse hparse)).mp hinvalid
      exact Or.inr ⟨parsed, fault, hparse, hfailure, hfault⟩
  case fails =>
    intro hcause
    refine (load_eq_error_iff h).mpr (hcause.imp_right ?_)
    rintro ⟨parsed, fault, hparse, hfailure, hfault⟩
    exact ⟨parsed, hparse,
      (validated_apply_eq_error_iff (program_of_parse hparse)).mpr ⟨fault, hfailure, hfault⟩⟩

/-- The policy and the time limit come from overrides, the program from the file, the output root is
the default one, and of two dots in front of the source extension both are gone. -/
theorem load_resolves_layers :
    let text := "[verifier]\nprogram = '/v'\ntime_limit_secs = 10\n[layout]\nsource_extension = '..bpl'\n"
    let read : Path → FileContent := fun _ => .bytes (Utf8.encode text)
    let overrides : Overrides := { timeLimit := some 2, onError := some .abort }
    ∃ config, load read (some (Path.ofString "batch.toml")) overrides = .ok config ∧
      config.verifier.timeLimit = 2 ∧ config.run.onError = .abort ∧
      config.layout.sourceExtension = "bpl" := by
  intro text read overrides
  have hread : read (Path.ofString "batch.toml") = .bytes (Utf8.encode text) := rfl
  obtain ⟨hloads, hresolved, -⟩ := load_resolves hread overrides
  have hparse : parse text = .ok
      { verifier := { program := Path.ofString "/v", timeLimit := 10 }
        layout := { sourceExtension := ".bpl" } } := by decide +kernel
  obtain ⟨config, hload⟩ := hloads.mpr ⟨_, hparse, by decide, "bpl", "smt2", by decide, by decide⟩
  obtain ⟨document, parsed, -, hparse', hresolves, hsource, -⟩ := hresolved config hload
  cases hparse.symm.trans hparse'
  have hextension : normalizeExtension "layout.source_extension" ".bpl" = .ok "bpl" := by decide
  exact ⟨config, hload, hresolves.timeLimit, hresolves.onError,
    Except.ok.inj (hsource.symm.trans hextension)⟩

end Config

end BatchVerify
