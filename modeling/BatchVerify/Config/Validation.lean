import BatchVerify.Config.Basic

/-!
# Validation

A configuration is brought into normal form and checked in one go: each extension loses a single
leading dot and must then be able to name a file suffix. What was normalised before a fault stays
normalised.
-/

namespace BatchVerify

/-- Why a configuration is refused. -/
inductive ConfigFault where
  /-- There is no verifier to run. -/
  | emptyProgram
  /-- Nothing is left of an extension. -/
  | emptyExtension (field : String)
  /-- An extension would reach into another directory. -/
  | separatorInExtension (field raw : String)
  /-- A fault that the caller words. -/
  | other (text : String)
  deriving DecidableEq, Repr

namespace ConfigFault

/-- The text of a fault. -/
def message : ConfigFault → String
  | .emptyProgram => "verifier.program must not be empty"
  | .emptyExtension field => field ++ " must not be empty"
  | .separatorInExtension field raw =>
    field ++ " must not contain a path separator: '" ++ raw ++ "'"
  | .other text => text

end ConfigFault

/-- A text without a single leading dot. -/
def stripDot (text : List Char) : List Char :=
  match text with
  | '.' :: rest => rest
  | _ => text

/-- The normal form of an extension. -/
def normalizeExtension (field raw : String) : Except ConfigFault String :=
  let extension := stripDot raw.toList
  if extension = [] then .error (.emptyExtension field)
  else if '/' ∈ extension ∨ '\\' ∈ extension then .error (.separatorInExtension field raw)
  else .ok (String.ofList extension)

namespace Layout

/-- Normalises both extensions, the source's first, up to the first fault. -/
def normalize (layout : Layout) : Layout × Option ConfigFault :=
  match normalizeExtension "layout.source_extension" layout.sourceExtension with
  | .error fault => (layout, some fault)
  | .ok sourceExtension =>
    let layout := { layout with sourceExtension }
    match normalizeExtension "layout.target_extension" layout.targetExtension with
    | .error fault => (layout, some fault)
    | .ok targetExtension => ({ layout with targetExtension }, none)

end Layout

namespace Config

/-- Checks the verifier, then normalises the layout, up to the first fault. -/
def normalize (config : Config) : Config × Option ConfigFault :=
  if config.verifier.program.bytes = [] then (config, some .emptyProgram)
  else
    let (layout, fault) := config.layout.normalize
    ({ config with layout }, fault)

/-- The normal form of a configuration without faults. -/
def validate (config : Config) : Except ConfigFault Config :=
  match config.normalize with
  | (config, none) => .ok config
  | (_, some fault) => .error fault

end Config

end BatchVerify
