import BatchVerify.Config.Schema
import BatchVerify.Config.Validation
import BatchVerify.Report.Basic
import BatchVerify.SystemError

/-!
# Failures

Why the program gives up, with the text for its user and a coarse class for callers. A run that
was aborted carries the report of what was done; `takeReport` hands it over once.
-/

namespace BatchVerify

/-- Why a text is no configuration document. -/
inductive DocumentFault where
  /-- It is not well-formed. -/
  | malformed
  /-- It is well-formed and does not fit the schema. -/
  | unfit (text : String) (fault : SchemaFault)
  deriving DecidableEq, Repr

/-- Why a report could not be written. -/
inductive ReportFault where
  | unwritable (path : Path) (cause : SystemError)
  /-- A fault that the caller words. -/
  | other (text : String)
  deriving DecidableEq, Repr

/-- Why the program gives up. -/
inductive Failure where
  | system (cause : SystemError)
  | config (fault : ConfigFault)
  | document (fault : DocumentFault)
  /-- The configuration file that was asked for is not there. -/
  | configMissing (path : Path)
  | rootMissing (path : Path)
  | rootNotDirectory (path : Path)
  /-- An output directory could not be made. -/
  | outputDirectory (path : Path) (cause : SystemError)
  /-- A source failed under the policy to abort; the report reaches up to it. -/
  | verifier (source : Path) (details : String) (report : Report)
  | unreported (fault : ReportFault)
  deriving DecidableEq, Repr

namespace DocumentFault

/-- The text of a fault. -/
def message : DocumentFault → String
  | .malformed => "the document is not well-formed\n"
  | .unfit text fault => fault.message text

end DocumentFault

namespace ReportFault

/-- The text of a fault. -/
def message : ReportFault → String
  | .unwritable path cause => path.display ++ ": " ++ cause.message
  | .other text => text

end ReportFault

namespace Failure

/-- The text of a failure. -/
def message : Failure → String
  | .system cause => cause.message
  | .config fault => fault.message
  | .document fault => "TOML parse error: " ++ fault.message
  | .configMissing path => "Config file not found: " ++ path.display
  | .rootMissing path => "Root directory not found: " ++ path.display
  | .rootNotDirectory path => "Not a directory: " ++ path.display
  | .outputDirectory path cause =>
    "Failed to create output directory " ++ path.display ++ ": " ++ cause.message
  | .verifier source details _ => "Verifier failed on " ++ source.display ++ ": " ++ details
  | .unreported fault => "Failed to write report: " ++ fault.message

/-- The class of a failure. -/
def kind : Failure → ErrorKind
  | .system cause | .outputDirectory _ cause => cause.kind
  | .config _ | .document _ => .invalidInput
  | .rootNotDirectory _ => .notADirectory
  | .configMissing _ | .rootMissing _ => .notFound
  | .verifier .. | .unreported _ => .other

/-- Hands over the report that a failure carries and leaves an empty one in its place. -/
def takeReport : Failure → Option Report × Failure
  | .verifier source details report => (some report, .verifier source details {})
  | failure => (none, failure)

end Failure

end BatchVerify
