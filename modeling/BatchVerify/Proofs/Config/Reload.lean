import BatchVerify.Config.Load
import BatchVerify.Proofs.Config.Validation
import BatchVerify.Proofs.Text.Utf8

/-!
# A configuration from a file

A configuration that is loaded from a file is validated as the file's and then as the run's, so a
dot that the first validation left in front of an extension is stripped by the second one. Without
such a dot the loaded configuration is the one that the text writes.
-/

namespace BatchVerify.Config

/-- The same configuration, or failures of the same kind. -/
def Agree : Except Failure Config → Except Failure Config → Prop
  | .ok config, .ok config' => config = config'
  | .error failure, .error failure' => failure.ctorIdx = failure'.ctorIdx
  | _, _ => False

instance : (a b : Except Failure Config) → Decidable (Agree a b)
  | .ok _, .ok _ => inferInstanceAs (Decidable (_ = _))
  | .error _, .error _ => inferInstanceAs (Decidable (_ = _))
  | .ok _, .error _ => inferInstanceAs (Decidable False)
  | .error _, .ok _ => inferInstanceAs (Decidable False)

theorem validated_eq_ok_iff {config normal : Config} :
    config.validated = .ok normal ↔ config.validate = .ok normal := by
  unfold validated
  cases config.validate <;> simp

/-- What a text writes is valid in the sense that it is the normal form of something. -/
theorem validate_of_parse {text : String} {config : Config} (h : parse text = .ok config) :
    ∃ written : Config, written.validate = .ok config := by
  unfold parse at h
  split at h
  · cases h
  · split at h
    · cases h
    · next written _ => exact ⟨written, validated_eq_ok_iff.mp h⟩

/-- A file is read, and what it writes is validated once more. -/
theorem load_file {read : Path → FileContent} {path : Path} {text : String}
    (h : read path = .bytes (Utf8.encode text)) :
    load read (some path) {} = (parse text).bind validated := by
  have hload : load read (some path) {} = (ofFile path (read path)).bind validated := rfl
  rw [hload, h, ofFile, Utf8.decode?_encode]

/-- A file gives the configuration that its text writes, or fails as the text does, just when no
extension is left with a dot in front. -/
theorem load_agrees_iff (read : Path → FileContent) (path : Path) (text : String)
    (h : read path = .bytes (Utf8.encode text)) :
    Agree (load read (some path) {}) (parse text) ↔
      ∀ config, parse text = .ok config →
        ¬ Dotted config.layout.sourceExtension ∧ ¬ Dotted config.layout.targetExtension := by
  rw [load_file h]
  cases hparse : parse text with
  | error failure =>
    refine ⟨fun _ config hconfig => ?_, fun _ => ?_⟩
    · cases hconfig
    · show failure.ctorIdx = failure.ctorIdx
      rfl
  | ok config =>
    obtain ⟨written, hwritten⟩ := validate_of_parse hparse
    have hvalid := validate_normal_iff hwritten
    -- what the text writes is valid, so a second validation can only strip dots
    show Agree config.validated (.ok config) ↔ _
    constructor
    · intro hagree config' hconfig
      cases hconfig
      rw [← hvalid, ← validated_eq_ok_iff]
      cases hvalidated : config.validated with
      | error failure =>
        rw [hvalidated] at hagree
        exact hagree.elim
      | ok normal =>
        rw [hvalidated] at hagree
        exact congrArg Except.ok hagree
    · intro hplain
      rw [validated_eq_ok_iff.mpr (hvalid.mpr (hplain config rfl))]
      exact rfl

/-- A single dot in front is stripped by the first validation, and nothing is left to strip. -/
theorem load_agrees_one_dot :
    let text := "[layout]\nsource_extension = \".bpl\"\n"
    Agree (load (fun _ => .bytes (Utf8.encode text)) (some (Path.ofString "batch.toml")) {})
      (parse text) := by
  intro text
  refine (load_agrees_iff _ _ text rfl).mpr fun config hconfig => ?_
  have hparse : (parse text).toOption = some {} := by decide +kernel
  rw [hconfig] at hparse
  cases hparse
  decide

/-- Of two dots in front the second validation strips the second one. -/
theorem not_load_agrees_two_dots :
    let text := "[layout]\nsource_extension = \"..bpl\"\n"
    let loaded := load (fun _ => .bytes (Utf8.encode text)) (some (Path.ofString "batch.toml")) {}
    ¬ Agree loaded (parse text) ∧
      (parse text).toOption.map (·.layout.sourceExtension) = some ".bpl" ∧
      loaded.toOption.map (·.layout.sourceExtension) = some "bpl" := by
  decide +kernel

end BatchVerify.Config
