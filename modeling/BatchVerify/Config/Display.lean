import BatchVerify.Config.Basic
import BatchVerify.Log.Record
import BatchVerify.Text.Quoted

/-!
# Showing a configuration

For the log a configuration is shown with all its fields, paths and texts between quotes.
-/

namespace BatchVerify

/-- A record value: its name, then its fields in braces. -/
def showFields (name : String) (fields : List (String × String)) : String :=
  name ++ " \x7b " ++
    ", ".intercalate (fields.map fun (field, value) => field ++ ": " ++ value) ++ " \x7d"

/-- The name under which a policy is shown. -/
def FailurePolicy.shown : FailurePolicy → String
  | .keepGoing => "Continue"
  | .abort => "Abort"

/-- A configuration with all its fields. -/
def Config.shown (config : Config) : String :=
  showFields "BatchConfig"
    [ ("verifier", showFields "VerifierConfig"
        [ ("program", Text.quoteBytes config.verifier.program.bytes),
          ("mode_flag", Text.quote config.verifier.modeFlag),
          ("time_limit_secs", toString config.verifier.timeLimit.toNat) ]),
      ("layout", showFields "LayoutConfig"
        [ ("output_root", Text.quoteBytes config.layout.outputRoot.bytes),
          ("source_extension", Text.quote config.layout.sourceExtension),
          ("target_extension", Text.quote config.layout.targetExtension) ]),
      ("run", showFields "RunSettings"
        [ ("on_error", config.run.onError.shown),
          ("capture_stderr", if config.run.captureStderr then "true" else "false") ]) ]

/-- The record about the configuration of a run. -/
def Config.record (config : Config) : Log.Record :=
  ⟨.debug, .configuration, "resolved batch configuration", [("config", config.shown)]⟩

end BatchVerify
