import BatchVerify.Proofs.Config.Reload
import BatchVerify.Proofs.Config.Sections

/-!
# What a document writes

The configurations that a document writes are told by what its nodes are, with no word on how they
are read (`Schema.IsConfig`). A well-formed text gives a configuration just when its document writes
one that has a program and proper extensions (`Config.parse_eq_ok_iff`).
-/

namespace BatchVerify

open Toml (Key Node Span)

namespace Schema

/-! ## Values -/

/-- A text that spells the path. -/
def IsPath (node : Node) (path : Path) : Prop :=
  ∃ span text, node = .string span text ∧ path = Path.ofString text

/-- The text. -/
def IsText (node : Node) (text : String) : Prop := ∃ span, node = .string span text

/-- The number, which has 32 bits and no sign. -/
def IsWord (node : Node) (word : UInt32) : Prop := ∃ span, node = .integer span word.toNat

/-- The truth value. -/
def IsFlag (node : Node) (flag : Bool) : Prop := ∃ span, node = .boolean span flag

/-- A table or an array with nothing in it. -/
inductive IsEmpty : Node → Prop
  | array (span : Span) : IsEmpty (.array span [])
  | table (span : Option Span) (origin : Toml.Origin) : IsEmpty (.table span origin [])
  | tables : IsEmpty (.tables [])

/-- A text that spells the policy, or a table whose one key does and has nothing under it. -/
inductive IsPolicy : Node → FailurePolicy → Prop
  | text (span : Span) {name : String} {policy : FailurePolicy}
    (spelled : FailurePolicy.ofSpelling? name = some policy) : IsPolicy (.string span name) policy
  | table (span : Option Span) (origin : Toml.Origin) {key : Key} {content : Node}
    {policy : FailurePolicy} (spelled : FailurePolicy.ofSpelling? key.name = some policy)
    (empty : IsEmpty content) : IsPolicy (.table span origin [(key, content)]) policy

theorem path_eq_ok_iff {node : Node} {value : Path} : path node = .ok value ↔ IsPath node value := by
  cases node <;> simp [path, IsPath, refuse, eq_comm]

theorem text_eq_ok_iff {node : Node} {value : String} : text node = .ok value ↔ IsText node value := by
  cases node <;> simp [text, IsText, refuse]

theorem flag_eq_ok_iff {node : Node} {value : Bool} : flag node = .ok value ↔ IsFlag node value := by
  cases node <;> simp [flag, IsFlag, refuse]

theorem word_eq_ok_iff {node : Node} {value : UInt32} : word node = .ok value ↔ IsWord node value := by
  cases node with
  | integer span number =>
    simp only [word, IsWord, Node.integer.injEq, exists_eq_left']
    constructor
    · intro h
      split_ifs at h with hrange
      · cases h
        obtain ⟨hnonneg, hlt⟩ := hrange
        rw [Nat.toUInt32_eq, UInt32.toNat_ofNat_of_lt' (by rw [UInt32.size]; omega)]
        omega
      · cases h
    · rintro rfl
      have hrange : (0 : Int) ≤ value.toNat ∧ (value.toNat : Int) < 0x100000000 := by
        have := value.toNat_lt
        omega
      rw [if_pos hrange, Int.toNat_natCast, Nat.toUInt32_eq, UInt32.ofNat_toNat]
  | _ => simp [word, IsWord, refuse]

theorem variant_eq_ok_iff {name : String} {span : Option Span} {policy : FailurePolicy} :
    variant name span = .ok policy ↔ FailurePolicy.ofSpelling? name = some policy := by
  unfold variant
  cases FailurePolicy.ofSpelling? name <;> simp

theorem noContent_eq_ok_iff {node : Node} : noContent node = .ok () ↔ IsEmpty node := by
  constructor
  · intro h
    unfold noContent at h
    split at h
    · next span items =>
      split_ifs at h with hempty
      · obtain rfl := List.isEmpty_iff.mp hempty
        exact .array span
      · cases h
    · next elements =>
      split_ifs at h with hempty
      · obtain rfl := List.isEmpty_iff.mp hempty
        exact .tables
      · cases h
    · next span origin entries =>
      split_ifs at h with hempty
      · obtain rfl := List.isEmpty_iff.mp hempty
        exact .table span origin
      · cases h
    · cases h
  · intro h
    cases h <;> rfl

theorem policy_eq_ok_iff {node : Node} {value : FailurePolicy} :
    policy node = .ok value ↔ IsPolicy node value := by
  constructor
  · intro h
    unfold policy at h
    split at h
    · next span name => exact .text span (variant_eq_ok_iff.mp h)
    · cases h
    · next span origin key content =>
      obtain ⟨found, hvariant, hrest⟩ := bind_eq_ok_iff.mp (within_eq_ok_iff.mp h)
      obtain ⟨_, hcontent, heq⟩ := bind_eq_ok_iff.mp hrest
      cases heq
      exact .table span origin (variant_eq_ok_iff.mp hvariant) (noContent_eq_ok_iff.mp hcontent)
    · cases h
    · cases h
  · intro h
    cases h with
    | text span hspelled => exact variant_eq_ok_iff.mpr hspelled
    | table span origin hspelled hempty =>
      refine within_eq_ok_iff.mpr (bind_eq_ok_iff.mpr ⟨value, variant_eq_ok_iff.mpr hspelled, ?_⟩)
      exact bind_eq_ok_iff.mpr ⟨(), noContent_eq_ok_iff.mpr hempty, rfl⟩

/-! ## Sections -/

/-- A section `verifier` that writes the settings. -/
def IsVerifier (node : Node) (settings : VerifierSettings) : Prop :=
  ∃ pairs, IsSection ["program", "mode_flag", "time_limit_secs"] node pairs ∧
    Holds IsPath ({} : VerifierSettings).program (pairs.lookup "program") settings.program ∧
    Holds IsText ({} : VerifierSettings).modeFlag (pairs.lookup "mode_flag") settings.modeFlag ∧
    Holds IsWord ({} : VerifierSettings).timeLimit (pairs.lookup "time_limit_secs") settings.timeLimit

/-- A section `layout` that writes the settings. -/
def IsLayout (node : Node) (layout : Layout) : Prop :=
  ∃ pairs, IsSection ["output_root", "source_extension", "target_extension"] node pairs ∧
    Holds IsPath ({} : Layout).outputRoot (pairs.lookup "output_root") layout.outputRoot ∧
    Holds IsText ({} : Layout).sourceExtension (pairs.lookup "source_extension")
      layout.sourceExtension ∧
    Holds IsText ({} : Layout).targetExtension (pairs.lookup "target_extension")
      layout.targetExtension

/-- A section `run` that writes the settings. -/
def IsRun (node : Node) (settings : RunSettings) : Prop :=
  ∃ pairs, IsSection ["on_error", "capture_stderr"] node pairs ∧
    Holds IsPolicy ({} : RunSettings).onError (pairs.lookup "on_error") settings.onError ∧
    Holds IsFlag ({} : RunSettings).captureStderr (pairs.lookup "capture_stderr")
      settings.captureStderr

/-- A document that writes the configuration. -/
def IsConfig (node : Node) (config : Config) : Prop :=
  ∃ pairs, IsSection ["verifier", "layout", "run"] node pairs ∧
    Holds IsVerifier {} (pairs.lookup "verifier") config.verifier ∧
    Holds IsLayout {} (pairs.lookup "layout") config.layout ∧
    Holds IsRun {} (pairs.lookup "run") config.run

/-- The slot of a field that is read by itself and then put into its place. -/
def Slot.of {α β : Type} (name : String) (reader : Node → Result β) (reads : Node → β → Prop)
    (get : α → β) (put : α → β → α) (get_put : ∀ built value, get (put built value) = value)
    (reader_eq_ok_iff : ∀ {node value}, node.Distinct → (reader node = .ok value ↔ reads node value)) :
    Slot α where
  field := ⟨name, fun built node => do return put built (← reader node)⟩
  Value := β
  reads := reads
  get := get
  put := put
  get_put := get_put
  enter_eq_ok_iff {built node built'} hnode := by
    rw [bind_eq_ok_iff]
    refine exists_congr fun value => and_congr (reader_eq_ok_iff hnode) ?_
    exact ⟨fun h => (Except.ok.inj h).symm, fun h => congrArg Except.ok h.symm⟩

/-- The slots of the section `verifier`. -/
def verifierSlots : List (Slot VerifierSettings) :=
  [ .of "program" path IsPath (·.program) (fun s value => { s with program := value })
      (fun _ _ => rfl) fun _ => path_eq_ok_iff,
    .of "mode_flag" text IsText (·.modeFlag) (fun s value => { s with modeFlag := value })
      (fun _ _ => rfl) fun _ => text_eq_ok_iff,
    .of "time_limit_secs" word IsWord (·.timeLimit) (fun s value => { s with timeLimit := value })
      (fun _ _ => rfl) fun _ => word_eq_ok_iff ]

theorem frame_verifierSlots : Frame verifierSlots where
  names := by decide
  others := by simp [verifierSlots, Slot.of, Slot.name]
  ext {built built'} h := by
    simp only [verifierSlots, Slot.of, List.forall_mem_cons] at h
    obtain ⟨hprogram, hflag, hlimit, -⟩ := h
    cases built
    cases built'
    simp_all

/-- Reading a section `verifier` gives the settings that it writes. -/
theorem verifier_eq_ok_iff {node : Node} {settings : VerifierSettings} (hnode : node.Distinct) :
    fieldsOf "VerifierConfig" verifierFields {} node = .ok settings ↔ IsVerifier node settings := by
  refine (frame_verifierSlots.fieldsOf_eq_ok_iff hnode).trans ?_
  simp only [verifierSlots, List.forall_mem_cons, List.not_mem_nil, false_imp_iff, implies_true,
    and_true]
  exact Iff.rfl

/-- The slots of the section `layout`. -/
def layoutSlots : List (Slot Layout) :=
  [ .of "output_root" path IsPath (·.outputRoot) (fun s value => { s with outputRoot := value })
      (fun _ _ => rfl) fun _ => path_eq_ok_iff,
    .of "source_extension" text IsText (·.sourceExtension)
      (fun s value => { s with sourceExtension := value }) (fun _ _ => rfl) fun _ => text_eq_ok_iff,
    .of "target_extension" text IsText (·.targetExtension)
      (fun s value => { s with targetExtension := value }) (fun _ _ => rfl) fun _ => text_eq_ok_iff ]

theorem frame_layoutSlots : Frame layoutSlots where
  names := by decide
  others := by simp [layoutSlots, Slot.of, Slot.name]
  ext {built built'} h := by
    simp only [layoutSlots, Slot.of, List.forall_mem_cons] at h
    obtain ⟨hroot, hsource, htarget, -⟩ := h
    cases built
    cases built'
    simp_all

/-- Reading a section `layout` gives the settings that it writes. -/
theorem layout_eq_ok_iff {node : Node} {layout : Layout} (hnode : node.Distinct) :
    fieldsOf "LayoutConfig" layoutFields {} node = .ok layout ↔ IsLayout node layout := by
  refine (frame_layoutSlots.fieldsOf_eq_ok_iff hnode).trans ?_
  simp only [layoutSlots, List.forall_mem_cons, List.not_mem_nil, false_imp_iff, implies_true,
    and_true]
  exact Iff.rfl

/-- The slots of the section `run`. -/
def runSlots : List (Slot RunSettings) :=
  [ .of "on_error" policy IsPolicy (·.onError) (fun s value => { s with onError := value })
      (fun _ _ => rfl) fun _ => policy_eq_ok_iff,
    .of "capture_stderr" flag IsFlag (·.captureStderr)
      (fun s value => { s with captureStderr := value }) (fun _ _ => rfl) fun _ => flag_eq_ok_iff ]

theorem frame_runSlots : Frame runSlots where
  names := by decide
  others := by simp [runSlots, Slot.of, Slot.name]
  ext {built built'} h := by
    simp only [runSlots, Slot.of, List.forall_mem_cons] at h
    obtain ⟨hpolicy, hcapture, -⟩ := h
    cases built
    cases built'
    simp_all

/-- Reading a section `run` gives the settings that it writes. -/
theorem run_eq_ok_iff {node : Node} {settings : RunSettings} (hnode : node.Distinct) :
    fieldsOf "RunSettings" runFields {} node = .ok settings ↔ IsRun node settings := by
  refine (frame_runSlots.fieldsOf_eq_ok_iff hnode).trans ?_
  simp only [runSlots, List.forall_mem_cons, List.not_mem_nil, false_imp_iff, implies_true, and_true]
  exact Iff.rfl

/-- The slots of a document. -/
def sectionSlots : List (Slot Config) :=
  [ .of "verifier" (fieldsOf "VerifierConfig" verifierFields {}) IsVerifier (·.verifier)
      (fun c value => { c with verifier := value }) (fun _ _ => rfl) verifier_eq_ok_iff,
    .of "layout" (fieldsOf "LayoutConfig" layoutFields {}) IsLayout (·.layout)
      (fun c value => { c with layout := value }) (fun _ _ => rfl) layout_eq_ok_iff,
    .of "run" (fieldsOf "RunSettings" runFields {}) IsRun (·.run)
      (fun c value => { c with run := value }) (fun _ _ => rfl) run_eq_ok_iff ]

theorem frame_sectionSlots : Frame sectionSlots where
  names := by decide
  others := by simp [sectionSlots, Slot.of, Slot.name]
  ext {built built'} h := by
    simp only [sectionSlots, Slot.of, List.forall_mem_cons] at h
    obtain ⟨hverifier, hlayout, hrun, -⟩ := h
    cases built
    cases built'
    simp_all

/-- Reading a document gives the configuration that it writes. -/
theorem config_eq_ok_iff {document : Node} {written : Config} (hdocument : document.Distinct) :
    config document = .ok written ↔ IsConfig document written := by
  refine (frame_sectionSlots.fieldsOf_eq_ok_iff hdocument).trans ?_
  simp only [sectionSlots, List.forall_mem_cons, List.not_mem_nil, false_imp_iff, implies_true,
    and_true]
  exact Iff.rfl

end Schema

/-! ## Validated configurations -/

/-- An extension as it is written, and without the one dot that may stand in front of it: something
is left, and no separator is in it. -/
structure IsExtension (raw extension : String) : Prop where
  stripped : raw.toList = '.' :: extension.toList ∨ raw = extension ∧ raw.toList.head? ≠ some '.'
  nonempty : extension ≠ ""
  noSlash : '/' ∉ extension.toList
  noBackslash : '\\' ∉ extension.toList

theorem stripDot_eq_iff {raw extension : List Char} :
    stripDot raw = extension ↔ raw = '.' :: extension ∨ raw = extension ∧ raw.head? ≠ some '.' := by
  constructor
  · rintro rfl
    by_cases hdot : raw.head? = some '.'
    · left
      obtain ⟨rest, rfl⟩ := List.head?_eq_some_iff.mp hdot
      rfl
    · exact .inr ⟨(stripDot_eq_self_iff.mpr hdot).symm, hdot⟩
  · rintro (rfl | ⟨rfl, hdot⟩)
    · rfl
    · exact stripDot_eq_self_iff.mpr hdot

theorem normalizeExtension_eq_ok_iff_isExtension {field raw extension : String} :
    normalizeExtension field raw = .ok extension ↔ IsExtension raw extension := by
  rw [normalizeExtension_eq_ok_iff, eq_comm, stripDot_eq_iff, String.toList_inj]
  have hempty : extension.toList ≠ [] ↔ extension ≠ "" := by simp
  rw [hempty]
  constructor
  · rintro ⟨hstripped, hnonempty, hslash, hbackslash⟩
    exact ⟨hstripped, hnonempty, hslash, hbackslash⟩
  · rintro ⟨hstripped, hnonempty, hslash, hbackslash⟩
    exact ⟨hstripped, hnonempty, hslash, hbackslash⟩

namespace Config

/-- A configuration as it is written, and the one that it stands for: there is a program, and the
extensions are without a dot in front. -/
structure Normalizes (written config : Config) : Prop where
  program : written.verifier.program.bytes ≠ []
  source : IsExtension written.layout.sourceExtension config.layout.sourceExtension
  target : IsExtension written.layout.targetExtension config.layout.targetExtension
  rest : config = { written with
    layout := { written.layout with
      sourceExtension := config.layout.sourceExtension
      targetExtension := config.layout.targetExtension } }

theorem validated_eq_ok_iff_normalizes {written config : Config} :
    written.validated = .ok config ↔ Normalizes written config := by
  rw [validated_eq_ok_iff, validate_eq_ok_iff]
  simp only [normalizeExtension_eq_ok_iff_isExtension]
  constructor
  · rintro ⟨hprogram, source, target, hsource, htarget, rfl⟩
    exact ⟨hprogram, hsource, htarget, rfl⟩
  · rintro ⟨hprogram, hsource, htarget, hrest⟩
    exact ⟨hprogram, _, _, hsource, htarget, hrest⟩

variable {text : String} {document : Node} {written : Config}

/-- A text whose document fits the schema gives the configuration that it writes, if that is valid. -/
theorem parse_of_isConfig (h : Toml.parse? text = some document)
    (hfits : Schema.IsConfig document written) : parse text = written.validated := by
  obtain ⟨root, rfl, hroot⟩ := Toml.parse?_distinct h
  rw [parse, h]
  dsimp only
  rw [(Schema.config_eq_ok_iff hroot.toNode).mpr hfits]

/-- What is read from a text is what its document writes. -/
theorem exists_isConfig (text : String) (written : Config)
    (h : (Toml.parse? text).map Schema.config = some (.ok written)) :
    ∃ document, Toml.parse? text = some document ∧ Schema.IsConfig document written := by
  obtain ⟨document, hparse, hconfig⟩ := Option.map_eq_some_iff.mp h
  obtain ⟨root, rfl, hroot⟩ := Toml.parse?_distinct hparse
  exact ⟨root.toNode, hparse, (Schema.config_eq_ok_iff hroot.toNode).mp hconfig⟩

theorem isConfig_of_parse {config : Config} (h : Toml.parse? text = some document)
    (hparse : parse text = .ok config) : ∃ written, Schema.IsConfig document written := by
  obtain ⟨root, rfl, hroot⟩ := Toml.parse?_distinct h
  rw [parse, h] at hparse
  dsimp only at hparse
  split at hparse
  · cases hparse
  · next written hconfig => exact ⟨written, (Schema.config_eq_ok_iff hroot.toNode).mp hconfig⟩

/-- A well-formed text gives a configuration just when its document writes one with a program and
proper extensions; it gives that one, the extensions without a dot in front. -/
theorem parse_eq_ok_iff (h : Toml.parse? text = some document) (config : Config) :
    parse text = .ok config ↔
      ∃ written, Schema.IsConfig document written ∧ Normalizes written config := by
  constructor
  · intro hparse
    obtain ⟨written, hfits⟩ := isConfig_of_parse h hparse
    rw [parse_of_isConfig h hfits] at hparse
    exact ⟨written, hfits, validated_eq_ok_iff_normalizes.mp hparse⟩
  · rintro ⟨written, hfits, hnormal⟩
    rw [parse_of_isConfig h hfits]
    exact validated_eq_ok_iff_normalizes.mpr hnormal

/-- A section is an array with a surplus item, a policy is a table, keys stand in any order, and one
of two dots is taken away. -/
theorem parse_mixed_spellings :
    let text := "run = [\x7b abort = [] \x7d, false, 7]\n" ++
      "verifier = \x7b time_limit_secs = 4294967295, program = '/v' \x7d\n" ++
      "[layout]\ntarget_extension = '..smt2'\n"
    let config : Config :=
      { verifier := { program := Path.ofString "/v", timeLimit := 4294967295 }
        layout := { targetExtension := ".smt2" }
        run := { onError := .abort, captureStderr := false } }
    ∃ document, Toml.parse? text = some document ∧
      ∃ written, Schema.IsConfig document written ∧ Normalizes written config := by
  intro text config
  obtain ⟨document, hdocument⟩ :=
    Option.isSome_iff_exists.mp (show (Toml.parse? text).isSome by decide +kernel)
  have hparse : parse text = .ok config := by decide +kernel
  exact ⟨document, hdocument, (parse_eq_ok_iff hdocument config).mp hparse⟩

end Config

end BatchVerify
