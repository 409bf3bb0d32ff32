import BatchVerify.Proofs.Config.Decoding

/-!
# Overrides

Overrides hide the values of the file that they replace, except that the file has to be valid on its
own. So whether the file names a program at all is seen even when the program is replaced, and
nothing else is (`Config.load_eq_iff_of_alikeBut`).
-/

namespace BatchVerify

open Toml (Key Node Origin Span)

/-- Nodes that are the same but for where, and in which form of table, they are written. -/
inductive Toml.Node.Alike : Node → Node → Prop
  | string (span span' : Span) (text : String) : Alike (.string span text) (.string span' text)
  | integer (span span' : Span) (value : Int) : Alike (.integer span value) (.integer span' value)
  | float (span span' : Span) (value : Binary64) : Alike (.float span value) (.float span' value)
  | boolean (span span' : Span) (value : Bool) : Alike (.boolean span value) (.boolean span' value)
  | moment (span span' : Span) : Alike (.moment span) (.moment span')
  | array (span span' : Span) {items items' : List Node} (nodes : List.Forall₂ Alike items items') :
    Alike (.array span items) (.array span' items')
  | table (span span' : Option Span) (origin origin' : Origin) {entries entries' : List (Key × Node)}
    (names : entries.map (fun entry => entry.1.name) = entries'.map fun entry => entry.1.name)
    (nodes : List.Forall₂ Alike (entries.map Prod.snd) (entries'.map Prod.snd)) :
    Alike (.table span origin entries) (.table span' origin' entries')
  | tables {elements elements' : List Node} (nodes : List.Forall₂ Alike elements elements') :
    Alike (.tables elements) (.tables elements')

namespace Schema

/-- The names of the fields of a section. -/
def fieldNames : String → List String
  | "verifier" => ["program", "mode_flag", "time_limit_secs"]
  | "layout" => ["output_root", "source_extension", "target_extension"]
  | "run" => ["on_error", "capture_stderr"]
  | _ => []

/-- The node that a document writes for a field of a section. -/
def written? (document : Node) (title name : String) : Option Node :=
  ((pairs? ["verifier", "layout", "run"] document).bind (List.lookup title)).bind fun node =>
    (pairs? (fieldNames title) node).bind (List.lookup name)

/-- Documents that differ in what they write for some keys at most. -/
def AlikeBut (keys : List (String × String)) (document document' : Node) : Prop :=
  ∀ title ∈ ["verifier", "layout", "run"], ∀ name ∈ fieldNames title, (title, name) ∉ keys →
    Option.Rel Node.Alike (written? document title name) (written? document' title name)

/-! ## Alike nodes say the same -/

theorem IsPath.eq_of_alike {node node' : Node} {path path' : Path} (h : IsPath node path)
    (halike : node.Alike node') (h' : IsPath node' path') : path = path' := by
  obtain ⟨_, text, rfl, rfl⟩ := h
  obtain ⟨_, text', rfl, rfl⟩ := h'
  cases halike
  rfl

theorem IsText.eq_of_alike {node node' : Node} {text text' : String} (h : IsText node text)
    (halike : node.Alike node') (h' : IsText node' text') : text = text' := by
  obtain ⟨_, rfl⟩ := h
  obtain ⟨_, rfl⟩ := h'
  cases halike
  rfl

theorem IsFlag.eq_of_alike {node node' : Node} {flag flag' : Bool} (h : IsFlag node flag)
    (halike : node.Alike node') (h' : IsFlag node' flag') : flag = flag' := by
  obtain ⟨_, rfl⟩ := h
  obtain ⟨_, rfl⟩ := h'
  cases halike
  rfl

theorem IsWord.eq_of_alike {node node' : Node} {word word' : UInt32} (h : IsWord node word)
    (halike : node.Alike node') (h' : IsWord node' word') : word = word' := by
  obtain ⟨_, rfl⟩ := h
  obtain ⟨_, rfl⟩ := h'
  generalize hvalue : ((word'.toNat : Nat) : Int) = value at halike
  cases halike
  exact UInt32.toNat_inj.mp (Int.ofNat.inj hvalue).symm

theorem IsPolicy.eq_of_alike {node node' : Node} {policy policy' : FailurePolicy}
    (h : IsPolicy node policy) (halike : node.Alike node') (h' : IsPolicy node' policy') :
    policy = policy' := by
  cases h with
  | text span hspelled =>
    cases halike
    cases h' with
    | text span' hspelled' => exact Option.some.inj (hspelled.symm.trans hspelled')
  | table span origin hspelled _ =>
    cases halike with
    | table _ _ _ _ hnames _ =>
      cases h' with
      | table span' origin' hspelled' _ =>
        have hname := List.cons.inj hnames
        dsimp only at hname
        rw [hname.1] at hspelled
        exact Option.some.inj (hspelled.symm.trans hspelled')

theorem Holds.eq_of_alike {α : Type} {reads : Node → α → Prop} {default value value' : α}
    {node? node?' : Option Node} (h : Holds reads default node? value)
    (hreads : ∀ {node node' value value'}, reads node value → node.Alike node' →
      reads node' value' → value = value')
    (halike : Option.Rel Node.Alike node? node?') (h' : Holds reads default node?' value') :
    value = value' := by
  cases halike with
  | none => exact h.trans h'.symm
  | some hnodes => exact hreads h hnodes h'

/-! ## Fields of a document -/

/-- A field of a section that may be missing holds what the document writes for it. -/
theorem Holds.bind {α β : Type} {isSection : Node → α → Prop} {reads : Node → β → Prop}
    {default settings : α} {section? : Option Node} {names : List String} {name : String}
    (get : α → β) (h : Holds isSection default section? settings)
    (hfield : ∀ {node}, isSection node settings → ∃ pairs, IsSection names node pairs ∧
      Holds reads (get default) (pairs.lookup name) (get settings)) :
    Holds reads (get default)
      (section?.bind fun node => (pairs? names node).bind (List.lookup name)) (get settings) := by
  cases section? with
  | none => exact congrArg get h
  | some node =>
    obtain ⟨pairs, hsection, hholds⟩ := hfield h
    rw [Option.bind_some, hsection.written]
    exact hholds

/-- What a document writes for each field. -/
structure Fills (document : Node) (config : Config) : Prop where
  program : Holds IsPath ({} : VerifierSettings).program (written? document "verifier" "program")
    config.verifier.program
  modeFlag : Holds IsText ({} : VerifierSettings).modeFlag (written? document "verifier" "mode_flag")
    config.verifier.modeFlag
  timeLimit : Holds IsWord ({} : VerifierSettings).timeLimit
    (written? document "verifier" "time_limit_secs") config.verifier.timeLimit
  outputRoot : Holds IsPath ({} : Layout).outputRoot (written? document "layout" "output_root")
    config.layout.outputRoot
  sourceExtension : Holds IsText ({} : Layout).sourceExtension
    (written? document "layout" "source_extension") config.layout.sourceExtension
  targetExtension : Holds IsText ({} : Layout).targetExtension
    (written? document "layout" "target_extension") config.layout.targetExtension
  onError : Holds IsPolicy ({} : RunSettings).onError (written? document "run" "on_error")
    config.run.onError
  captureStderr : Holds IsFlag ({} : RunSettings).captureStderr
    (written? document "run" "capture_stderr") config.run.captureStderr

theorem IsConfig.fills {document : Node} {config : Config} (h : IsConfig document config) :
    Fills document config := by
  obtain ⟨pairs, hdocument, hverifier, hlayout, hrun⟩ := h
  have hwritten (title name : String) : written? document title name =
      (pairs.lookup title).bind fun node => (pairs? (fieldNames title) node).bind (List.lookup name) := by
    rw [written?, hdocument.written, Option.bind_some]
  constructor <;> rw [hwritten]
  · exact hverifier.bind (·.program) fun ⟨pairs, hsection, h, _⟩ => ⟨pairs, hsection, h⟩
  · exact hverifier.bind (·.modeFlag) fun ⟨pairs, hsection, _, h, _⟩ => ⟨pairs, hsection, h⟩
  · exact hverifier.bind (·.timeLimit) fun ⟨pairs, hsection, _, _, h⟩ => ⟨pairs, hsection, h⟩
  · exact hlayout.bind (·.outputRoot) fun ⟨pairs, hsection, h, _⟩ => ⟨pairs, hsection, h⟩
  · exact hlayout.bind (·.sourceExtension) fun ⟨pairs, hsection, _, h, _⟩ => ⟨pairs, hsection, h⟩
  · exact hlayout.bind (·.targetExtension) fun ⟨pairs, hsection, _, _, h⟩ => ⟨pairs, hsection, h⟩
  · exact hrun.bind (·.onError) fun ⟨pairs, hsection, h, _⟩ => ⟨pairs, hsection, h⟩
  · exact hrun.bind (·.captureStderr) fun ⟨pairs, hsection, _, h⟩ => ⟨pairs, hsection, h⟩

end Schema

namespace Overrides

/-- The keys whose values the overrides replace. -/
def replaced (overrides : Overrides) : List (String × String) :=
  (if overrides.verifier.isSome then [("verifier", "program")] else []) ++
    (if overrides.outputRoot.isSome then [("layout", "output_root")] else []) ++
    (if overrides.timeLimit.isSome then [("verifier", "time_limit_secs")] else []) ++
    (if overrides.onError.isSome then [("run", "on_error")] else [])

/-- Values that are the same unless they are replaced are the same after they are replaced. -/
theorem getD_congr {α : Type} {replacement : Option α} {value value' : α}
    (h : replacement.isNone → value = value') : replacement.getD value = replacement.getD value' := by
  cases replacement with
  | none => exact h rfl
  | some _ => rfl

/-- Documents that are alike but for the replaced keys write one configuration, once the overrides
are on it. -/
theorem apply_eq_of_alikeBut {overrides : Overrides} {document document' : Node}
    {written written' : Config} (h : Schema.IsConfig document written)
    (h' : Schema.IsConfig document' written')
    (halike : Schema.AlikeBut overrides.replaced document document') :
    overrides.apply written = overrides.apply written' := by
  have hfills := h.fills
  have hfills' := h'.fills
  have hprogram : overrides.verifier.getD written.verifier.program =
      overrides.verifier.getD written'.verifier.program := getD_congr fun hnone =>
    hfills.program.eq_of_alike Schema.IsPath.eq_of_alike
      (halike "verifier" (by decide) "program" (by decide) (by simp_all [replaced])) hfills'.program
  have htimeLimit : overrides.timeLimit.getD written.verifier.timeLimit =
      overrides.timeLimit.getD written'.verifier.timeLimit := getD_congr fun hnone =>
    hfills.timeLimit.eq_of_alike Schema.IsWord.eq_of_alike
      (halike "verifier" (by decide) "time_limit_secs" (by decide) (by simp_all [replaced]))
      hfills'.timeLimit
  have houtputRoot : overrides.outputRoot.getD written.layout.outputRoot =
      overrides.outputRoot.getD written'.layout.outputRoot := getD_congr fun hnone =>
    hfills.outputRoot.eq_of_alike Schema.IsPath.eq_of_alike
      (halike "layout" (by decide) "output_root" (by decide) (by simp_all [replaced]))
      hfills'.outputRoot
  have honError : overrides.onError.getD written.run.onError =
      overrides.onError.getD written'.run.onError := getD_congr fun hnone =>
    hfills.onError.eq_of_alike Schema.IsPolicy.eq_of_alike
      (halike "run" (by decide) "on_error" (by decide) (by simp_all [replaced])) hfills'.onError
  -- the other four cannot be replaced
  have hmodeFlag := hfills.modeFlag.eq_of_alike Schema.IsText.eq_of_alike
    (halike "verifier" (by decide) "mode_flag" (by decide) (by simp [replaced])) hfills'.modeFlag
  have hsource := hfills.sourceExtension.eq_of_alike Schema.IsText.eq_of_alike
    (halike "layout" (by decide) "source_extension" (by decide) (by simp [replaced]))
    hfills'.sourceExtension
  have htarget := hfills.targetExtension.eq_of_alike Schema.IsText.eq_of_alike
    (halike "layout" (by decide) "target_extension" (by decide) (by simp [replaced]))
    hfills'.targetExtension
  have hcapture := hfills.captureStderr.eq_of_alike Schema.IsFlag.eq_of_alike
    (halike "run" (by decide) "capture_stderr" (by decide) (by simp [replaced]))
    hfills'.captureStderr
  simp only [apply, hprogram, htimeLimit, houtputRoot, honError, hmodeFlag, hsource, htarget, hcapture]

end Overrides

/-! ## Loading -/

/-- The output root has no part in validation. -/
theorem Layout.normalize_outputRoot (layout : Layout) (outputRoot : Path) :
    ({ layout with outputRoot } : Layout).normalize =
      ({ layout.normalize.1 with outputRoot }, layout.normalize.2) := by
  unfold normalize
  dsimp only
  cases normalizeExtension "layout.source_extension" layout.sourceExtension with
  | error fault => rfl
  | ok source =>
    dsimp only
    cases normalizeExtension "layout.target_extension" layout.targetExtension <;> rfl

theorem normalizeExtension_ne_emptyProgram {field raw : String} :
    normalizeExtension field raw ≠ .error .emptyProgram := by
  unfold normalizeExtension
  dsimp only
  split_ifs <;> simp

/-- A layout is in order just when both extensions are. -/
theorem Layout.normalize_eq_none_iff {layout : Layout} :
    layout.normalize.2 = none ↔
      (∃ source, IsExtension layout.sourceExtension source) ∧
        ∃ target, IsExtension layout.targetExtension target := by
  have hsource (source : String) : IsExtension layout.sourceExtension source ↔
      normalizeExtension "layout.source_extension" layout.sourceExtension = .ok source :=
    normalizeExtension_eq_ok_iff_isExtension.symm
  have htarget (target : String) : IsExtension layout.targetExtension target ↔
      normalizeExtension "layout.target_extension" layout.targetExtension = .ok target :=
    normalizeExtension_eq_ok_iff_isExtension.symm
  simp only [hsource, htarget]
  unfold normalize
  cases normalizeExtension "layout.source_extension" layout.sourceExtension with
  | error fault => simp
  | ok source =>
    dsimp only
    cases normalizeExtension "layout.target_extension" layout.targetExtension <;> simp

theorem Layout.normalize_ne_emptyProgram {layout : Layout} :
    layout.normalize.2 ≠ some .emptyProgram := by
  have hafter := layout.normalizing
  generalize layout.normalize = after at hafter
  cases hafter with
  | sourceRefused hsource =>
    rintro ⟨⟩
    exact normalizeExtension_ne_emptyProgram hsource
  | targetRefused _ htarget =>
    rintro ⟨⟩
    exact normalizeExtension_ne_emptyProgram htarget
  | valid _ _ => simp

namespace Config

/-- A configuration once its extensions are normalised and the whole is validated after that. -/
def revalidated (config : Config) : Except Failure Config :=
  match config.layout.normalize with
  | (layout, none) => { config with layout }.validated
  | (_, some fault) => .error (.config fault)

variable {written written' : Config} {overrides : Overrides}

theorem validated_eq_emptyProgram_iff :
    written.validated = .error (.config .emptyProgram) ↔ written.verifier.program.bytes = [] := by
  unfold validated validate normalize
  by_cases h : written.verifier.program.bytes = []
  · simp [h]
  · rcases hlayout : written.layout.normalize with ⟨layout, _ | fault⟩
    · simp [h]
    · have hne : fault ≠ .emptyProgram := fun heq => Layout.normalize_ne_emptyProgram (heq ▸ congrArg Prod.snd hlayout)
      simp [h, hne]

/-- Of a file with a program only what the overrides leave is seen. -/
theorem validated_bind_apply (h : written.verifier.program.bytes ≠ []) :
    (written.validated.bind fun config => (overrides.apply config).validated) =
      (overrides.apply written).revalidated := by
  have hnormal := Layout.normalize_outputRoot written.layout
    (overrides.outputRoot.getD written.layout.outputRoot)
  have hroot := congrArg (·.1.outputRoot)
    (Layout.normalize_outputRoot written.layout written.layout.outputRoot)
  have happlied : (overrides.apply written).layout = { written.layout with
    outputRoot := overrides.outputRoot.getD written.layout.outputRoot } := rfl
  rw [revalidated, happlied, hnormal]
  rcases hlayout : written.layout.normalize with ⟨layout, _ | fault⟩
  · have hvalid : written.validated = .ok { written with layout } := by
      simp [validated, validate, normalize, h, hlayout]
    rw [hvalid]
    simp only [hlayout] at hroot
    rw [← hroot]
    rfl
  · simp [validated, validate, normalize, h, hlayout, Except.bind]

theorem revalidated_eq_emptyProgram_iff :
    written.revalidated = .error (.config .emptyProgram) ↔
      written.verifier.program.bytes = [] ∧ written.layout.normalize.2 = none := by
  unfold revalidated
  rcases hlayout : written.layout.normalize with ⟨layout, _ | fault⟩
  · simp [validated_eq_emptyProgram_iff]
  · have hne : fault ≠ .emptyProgram := fun heq =>
      Layout.normalize_ne_emptyProgram (heq ▸ congrArg Prod.snd hlayout)
    simp [hne]

/-- Of two files only one of which has a program of its own, the other fails for that. They fail
alike just when a verifier without a name takes the place of both programs, and nothing is found
before it. -/
theorem blank_loaded_eq_iff (h : overrides.apply written = overrides.apply written')
    (hblank : written.verifier.program.bytes = []) (hprogram : written'.verifier.program.bytes ≠ []) :
    ((written.validated.bind fun config => (overrides.apply config).validated) =
        written'.validated.bind fun config => (overrides.apply config).validated) ↔
      overrides.verifier = some ⟨[]⟩ ∧ (overrides.apply written').layout.normalize.2 = none := by
  rw [validated_eq_emptyProgram_iff.mpr hblank, validated_bind_apply hprogram, eq_comm]
  refine revalidated_eq_emptyProgram_iff.trans (and_congr_left fun _ => ?_)
  have heq : overrides.verifier.getD written.verifier.program =
      overrides.verifier.getD written'.verifier.program := congrArg (·.verifier.program) h
  change (overrides.verifier.getD written'.verifier.program).bytes = [] ↔ _
  cases hverifier : overrides.verifier with
  | none =>
    rw [hverifier] at heq
    exact absurd ((congrArg Path.bytes heq).symm.trans hblank) hprogram
  | some program =>
    obtain ⟨bytes⟩ := program
    simp

/-- Configurations that are the same under the overrides are loaded alike just when both or neither
have a program of their own, or when a verifier without a name takes the place of both programs. -/
theorem loaded_eq_iff (h : overrides.apply written = overrides.apply written') :
    ((written.validated.bind fun config => (overrides.apply config).validated) =
        written'.validated.bind fun config => (overrides.apply config).validated) ↔
      (written.verifier.program.bytes = [] ↔ written'.verifier.program.bytes = []) ∨
        overrides.verifier = some ⟨[]⟩ ∧ (overrides.apply written).layout.normalize.2 = none := by
  by_cases hblank : written.verifier.program.bytes = [] <;>
    by_cases hblank' : written'.verifier.program.bytes = []
  · simp [validated_eq_emptyProgram_iff.mpr hblank, validated_eq_emptyProgram_iff.mpr hblank',
      hblank, hblank']
  · rw [blank_loaded_eq_iff h hblank hblank', h]
    simp [hblank, hblank']
  · rw [eq_comm, blank_loaded_eq_iff h.symm hblank' hblank]
    simp [hblank, hblank']
  · rw [validated_bind_apply hblank, validated_bind_apply hblank', h]
    simp [hblank, hblank']

/-- A file is read, and what it writes is validated before the overrides are on it and after. -/
theorem load_file_overridden {read : Path → FileContent} {path : Path} {text : String}
    (h : read path = .bytes (Utf8.encode text)) :
    load read (some path) overrides =
      (parse text).bind fun config => (overrides.apply config).validated := by
  have hload : load read (some path) overrides =
      (ofFile path (read path)).bind fun config => (overrides.apply config).validated := rfl
  rw [hload, h, ofFile, Utf8.decode?_encode]

/-- Two files that fit the schema and differ only in what the overrides replace are loaded alike,
unless just one of them writes an empty program: each has to be valid on its own, so that one fails.
It fails as the other does only where the program is replaced by an empty one and the extensions are
in order. -/
theorem load_eq_iff_of_alikeBut {read : Path → FileContent} {path path' : Path}
    {text text' : String} {document document' : Node}
    (hread : read path = .bytes (Utf8.encode text)) (hread' : read path' = .bytes (Utf8.encode text'))
    (hparse : Toml.parse? text = some document) (hparse' : Toml.parse? text' = some document')
    (hfits : Schema.IsConfig document written) (hfits' : Schema.IsConfig document' written')
    (halike : Schema.AlikeBut overrides.replaced document document') :
    (load read (some path) overrides = load read (some path') overrides ↔
        (written.verifier.program.bytes = [] ↔ written'.verifier.program.bytes = []) ∨
          overrides.verifier = some ⟨[]⟩ ∧
            (∃ source, IsExtension written.layout.sourceExtension source) ∧
              ∃ target, IsExtension written.layout.targetExtension target) ∧
      (written.verifier.program.bytes = [] →
        load read (some path) overrides = .error (.config .emptyProgram)) := by
  rw [load_file_overridden hread, load_file_overridden hread', parse_of_isConfig hparse hfits,
    parse_of_isConfig hparse' hfits', loaded_eq_iff (Overrides.apply_eq_of_alikeBut hfits hfits' halike),
    Layout.normalize_eq_none_iff]
  refine ⟨Iff.rfl, fun hblank => ?_⟩
  rw [validated_eq_emptyProgram_iff.mpr hblank]
  rfl

theorem rel_of_unwritten {text text' : String} {document document' : Node} {title name : String}
    (hparse : Toml.parse? text = some document) (hparse' : Toml.parse? text' = some document')
    (h : ∀ text'' ∈ [text, text'], (Toml.parse? text'').all fun document =>
      (Schema.written? document title name).isNone) :
    Option.Rel Node.Alike (Schema.written? document title name)
      (Schema.written? document' title name) := by
  have hnone := h text List.mem_cons_self
  have hnone' := h text' (List.mem_cons_of_mem _ List.mem_cons_self)
  rw [hparse, Option.all_some, Option.isNone_iff_eq_none] at hnone
  rw [hparse', Option.all_some, Option.isNone_iff_eq_none] at hnone'
  rw [hnone, hnone']
  exact .none

/-- A text that is not the default is written. -/
theorem written_of_ne {default text : String} {node? : Option Node}
    (h : Schema.Holds Schema.IsText default node? text) (hne : text ≠ default) :
    ∃ span, node? = some (.string span text) := by
  cases node? with
  | none => exact absurd h hne
  | some node =>
    obtain ⟨span, rfl⟩ := h
    exact ⟨span, rfl⟩

/-- Time limit and policy of the file are hidden by overrides; the extension is not, and is the same
in both files. -/
theorem load_hides_limit_and_policy :
    let text := "[layout]\nsource_extension = '.bpl'\n[verifier]\ntime_limit_secs = 7\n"
    let text' := "run = \x7b on_error = 'abort' \x7d\nlayout.source_extension = \".bpl\"\n"
    let read : Path → FileContent := fun path =>
      .bytes (Utf8.encode (if path = Path.ofString "a.toml" then text else text'))
    let overrides : Overrides := { timeLimit := some 2, onError := some .keepGoing }
    load read (some (Path.ofString "a.toml")) overrides =
      load read (some (Path.ofString "b.toml")) overrides := by
  intro text text' read overrides
  obtain ⟨document, hparse, hfits⟩ := exists_isConfig text
    { layout := { sourceExtension := ".bpl" }, verifier := { timeLimit := 7 } } (by decide +kernel)
  obtain ⟨document', hparse', hfits'⟩ := exists_isConfig text'
    { layout := { sourceExtension := ".bpl" }, run := { onError := .abort } } (by decide +kernel)
  have hnone : ∀ title ∈ ["verifier", "layout", "run"], ∀ name ∈ Schema.fieldNames title,
      (title, name) ∉ overrides.replaced → (title, name) ≠ ("layout", "source_extension") →
        ∀ text'' ∈ [text, text'], (Toml.parse? text'').all fun document =>
          (Schema.written? document title name).isNone := by
    decide +kernel
  have halike : Schema.AlikeBut overrides.replaced document document' := by
    intro title htitle name hname hkept
    by_cases hkey : (title, name) = ("layout", "source_extension")
    · cases hkey
      obtain ⟨span, hnode⟩ := written_of_ne hfits.fills.sourceExtension (by decide)
      obtain ⟨span', hnode'⟩ := written_of_ne hfits'.fills.sourceExtension (by decide)
      rw [hnode, hnode']
      exact .some (.string span span' _)
    · exact rel_of_unwritten hparse hparse' (hnone title htitle name hname hkept hkey)
  exact (load_eq_iff_of_alikeBut rfl rfl hparse hparse' hfits hfits' halike).1.mpr
    (.inl (iff_of_false (by decide) (by decide)))

/-- An empty program in the file is not hidden by the one that replaces it. -/
theorem not_load_hides_empty_program :
    let text := "[verifier]\nprogram = \"\"\n"
    let text' := "[verifier]\nprogram = \"/v\"\n"
    let read : Path → FileContent := fun path =>
      .bytes (Utf8.encode (if path = Path.ofString "a.toml" then text else text'))
    let overrides : Overrides := { verifier := some (Path.ofString "/x") }
    ∃ document document' written written',
      Toml.parse? text = some document ∧ Toml.parse? text' = some document' ∧
        Schema.IsConfig document written ∧ Schema.IsConfig document' written' ∧
        Schema.AlikeBut overrides.replaced document document' ∧
        load read (some (Path.ofString "a.toml")) overrides = .error (.config .emptyProgram) ∧
        load read (some (Path.ofString "b.toml")) overrides =
          .ok { verifier := { program := Path.ofString "/x" } } := by
  intro text text' read overrides
  obtain ⟨document, hparse, hfits⟩ := exists_isConfig text
    { verifier := { program := Path.ofString "" } } (by decide +kernel)
  obtain ⟨document', hparse', hfits'⟩ := exists_isConfig text'
    { verifier := { program := Path.ofString "/v" } } (by decide +kernel)
  have hnone : ∀ title ∈ ["verifier", "layout", "run"], ∀ name ∈ Schema.fieldNames title,
      (title, name) ∉ overrides.replaced → ∀ text'' ∈ [text, text'],
        (Toml.parse? text'').all fun document => (Schema.written? document title name).isNone := by
    decide +kernel
  have halike : Schema.AlikeBut overrides.replaced document document' := by
    intro title htitle name hname hkept
    exact rel_of_unwritten hparse hparse' (hnone title htitle name hname hkept)
  exact ⟨document, document', _, _, hparse, hparse', hfits, hfits', halike, by decide +kernel,
    by decide +kernel⟩

end Config

end BatchVerify
