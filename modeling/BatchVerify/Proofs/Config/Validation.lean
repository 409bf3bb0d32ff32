import BatchVerify.Config.Validation
import Mathlib.Tactic.SplitIfs

/-!
# Normal forms

Validation brings both extensions into normal form and touches nothing else
(`Config.validate_eq_ok_iff`). A normal form is its own normal form unless it still starts with a
dot, of which one more is then taken away (`normalizeExtension_normal_iff`).
-/

namespace BatchVerify

/-- A text starts with a dot. -/
def Dotted (text : String) : Prop := text.toList.head? = some '.'

instance (text : String) : Decidable (Dotted text) := inferInstanceAs (Decidable (_ = _))

/-- Only a dot in front is stripped. -/
theorem stripDot_eq_self_iff {text : List Char} : stripDot text = text ↔ text.head? ≠ some '.' := by
  cases text with
  | nil => simp [stripDot]
  | cons c rest =>
    by_cases hdot : c = '.'
    · subst hdot
      simp [stripDot]
    · simp [stripDot, hdot]

/-- A normal form is the text without a dot in front; something is left, and no separator. -/
theorem normalizeExtension_eq_ok_iff {field raw extension : String} :
    normalizeExtension field raw = .ok extension ↔
      extension.toList = stripDot raw.toList ∧ extension.toList ≠ [] ∧
        '/' ∉ extension.toList ∧ '\\' ∉ extension.toList := by
  unfold normalizeExtension
  dsimp only
  constructor
  · intro h
    split_ifs at h with hempty hseparator
    cases h
    rw [String.toList_ofList]
    exact ⟨rfl, hempty, not_or.mp hseparator⟩
  · rintro ⟨hstrip, hempty, hslash, hbackslash⟩
    rw [← hstrip, if_neg hempty, if_neg (not_or.mpr ⟨hslash, hbackslash⟩), String.ofList_toList]

/-- Normalising again changes nothing unless there is another dot to strip. -/
theorem normalizeExtension_normal_iff {field raw extension : String}
    (h : normalizeExtension field raw = .ok extension) :
    normalizeExtension field extension = .ok extension ↔ ¬ Dotted extension := by
  obtain ⟨_, hclean⟩ := normalizeExtension_eq_ok_iff.mp h
  rw [normalizeExtension_eq_ok_iff, Dotted, ← ne_eq, ← stripDot_eq_self_iff]
  constructor
  · rintro ⟨hstrip, _⟩
    exact hstrip.symm
  · intro hstrip
    exact ⟨hstrip.symm, hclean⟩

/-- What normalising leaves of a layout, and the fault that it stops at. The source extension has its
normal form before the target extension is looked at. -/
inductive Layout.Normalizing (layout : Layout) : Layout × Option ConfigFault → Prop
  | sourceRefused {fault : ConfigFault}
    (hsource : normalizeExtension "layout.source_extension" layout.sourceExtension = .error fault) :
    Normalizing layout (layout, some fault)
  | targetRefused {fault : ConfigFault} {source : String}
    (hsource : normalizeExtension "layout.source_extension" layout.sourceExtension = .ok source)
    (htarget : normalizeExtension "layout.target_extension" layout.targetExtension = .error fault) :
    Normalizing layout ({ layout with sourceExtension := source }, some fault)
  | valid {source target : String}
    (hsource : normalizeExtension "layout.source_extension" layout.sourceExtension = .ok source)
    (htarget : normalizeExtension "layout.target_extension" layout.targetExtension = .ok target) :
    Normalizing layout
      ({ layout with sourceExtension := source, targetExtension := target }, none)

theorem Layout.normalizing (layout : Layout) : layout.Normalizing layout.normalize := by
  unfold normalize
  cases hsource : normalizeExtension "layout.source_extension" layout.sourceExtension with
  | error fault => exact .sourceRefused hsource
  | ok source =>
    dsimp only
    cases htarget : normalizeExtension "layout.target_extension" layout.targetExtension with
    | error fault => exact .targetRefused hsource htarget
    | ok target => exact .valid hsource htarget

namespace Config

/-- A valid configuration has a program, and its normal form differs in the extensions at most. -/
theorem validate_eq_ok_iff {config normal : Config} :
    config.validate = .ok normal ↔
      config.verifier.program.bytes ≠ [] ∧
        ∃ source target,
          normalizeExtension "layout.source_extension" config.layout.sourceExtension = .ok source ∧
          normalizeExtension "layout.target_extension" config.layout.targetExtension = .ok target ∧
          normal = { config with
            layout := { config.layout with
              sourceExtension := source
              targetExtension := target } } := by
  unfold validate normalize Layout.normalize
  by_cases hprogram : config.verifier.program.bytes = []
  · simp [hprogram]
  · rw [if_neg hprogram]
    cases normalizeExtension "layout.source_extension" config.layout.sourceExtension with
    | error fault => simp
    | ok source =>
      cases htarget : normalizeExtension "layout.target_extension"
          config.layout.targetExtension with
      | error fault => simp [htarget]
      | ok target => simp [htarget, hprogram, eq_comm]

/-- A normal form is valid as it is just when neither extension starts with another dot. -/
theorem validate_normal_iff {config normal : Config} (h : config.validate = .ok normal) :
    normal.validate = .ok normal ↔
      ¬ Dotted normal.layout.sourceExtension ∧ ¬ Dotted normal.layout.targetExtension := by
  obtain ⟨hprogram, source, target, hsource, htarget, rfl⟩ := validate_eq_ok_iff.mp h
  rw [← normalizeExtension_normal_iff hsource, ← normalizeExtension_normal_iff htarget,
    validate_eq_ok_iff]
  constructor
  · rintro ⟨_, source', target', hsource', htarget', heq⟩
    have hlayout := congrArg Config.layout heq
    obtain rfl : source = source' := congrArg Layout.sourceExtension hlayout
    obtain rfl : target = target' := congrArg Layout.targetExtension hlayout
    exact ⟨hsource', htarget'⟩
  · rintro ⟨hsource', htarget'⟩
    exact ⟨hprogram, source, target, hsource', htarget', rfl⟩

/-- A configuration that validation lets through, as it is or as the normal form of another. -/
def Accepted (config : Config) : Prop :=
  (∃ normal, config.validate = .ok normal) ∨ ∃ written : Config, written.validate = .ok config

/-- What stripping a dot leaves is there before. -/
theorem Accepted.targetExtension {config : Config} (h : config.Accepted) :
    config.layout.targetExtension.toList ≠ [] ∧ '/' ∉ config.layout.targetExtension.toList := by
  rcases h with ⟨normal, hvalid⟩ | ⟨written, hvalid⟩
  · obtain ⟨-, _, target, -, htarget, -⟩ := validate_eq_ok_iff.mp hvalid
    obtain ⟨hstrip, hempty, hslash, -⟩ := normalizeExtension_eq_ok_iff.mp htarget
    rw [hstrip] at hempty hslash
    cases htext : config.layout.targetExtension.toList with
    | nil =>
      rw [htext] at hempty
      exact absurd rfl hempty
    | cons c rest =>
      rw [htext] at hslash
      refine ⟨List.cons_ne_nil c rest, ?_⟩
      by_cases hdot : c = '.'
      · subst hdot
        simpa [stripDot] using hslash
      · simpa [stripDot, hdot] using hslash
  · obtain ⟨-, _, target, -, htarget, rfl⟩ := validate_eq_ok_iff.mp hvalid
    obtain ⟨-, hempty, hslash, -⟩ := normalizeExtension_eq_ok_iff.mp htarget
    exact ⟨hempty, hslash⟩

end Config

end BatchVerify
