import BatchVerify.Failure
import BatchVerify.Json.Basic

/-!
# Report files

A report is an object of its totals and an array of outcomes. An outcome is one flat object: names
and paths as readable text, then the status and what belongs to it. A report is written to a file as a
whole; a file that cannot be written is a failure that names it.
-/

namespace BatchVerify

/-- An optional value; `null` if there is none. -/
def Json.optional {α : Type} (toJson : α → Json) : Option α → Json
  | some value => toJson value
  | none => .null

/-- The fields of a status, the first of which names it. -/
def Status.jsonFields : Status → List (String × Json)
  | .succeeded => [("status", .string "succeeded")]
  | .failed exitCode stderr =>
    [ ("status", .string "failed"), ("exit_code", Json.optional .integer exitCode),
      ("stderr", Json.optional .string stderr) ]
  | .notStarted reason => [("status", .string "spawn_failed"), ("reason", .string reason)]

/-- An outcome as a flat object. -/
def Outcome.toJson (outcome : Outcome) : Json :=
  .object
    ([ ("group", .string (Utf8.decodeLossy outcome.group)),
       ("source", .string outcome.source.display),
       ("target", .string outcome.target.display) ] ++ outcome.status.jsonFields)

namespace Report

/-- A report as an object. -/
def toJson (report : Report) : Json :=
  .object
    [ ("groups_visited", .integer report.groupsVisited),
      ("processed", .integer report.processed),
      ("succeeded", .integer report.succeeded),
      ("failed", .integer report.failed),
      ("outcomes", .array (report.outcomes.map Outcome.toJson)) ]

/-- The content of a report file. -/
def fileText (report : Report) : String := report.toJson.text ++ "\n"

/-- Writes a report with a given way to write files. -/
def save {σ : Type} (report : Report) (write : Path → Bytes → σ → Except SystemError σ) (path : Path)
    (state : σ) : Except Failure σ :=
  match write path (Utf8.encode report.fileText) state with
  | .ok state => .ok state
  | .error cause => .error (.unreported (.unwritable path cause))

end Report

end BatchVerify
