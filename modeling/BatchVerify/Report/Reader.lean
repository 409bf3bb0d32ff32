import BatchVerify.Json.Reader
import BatchVerify.Report.File

/-!
# Reports from JSON

The objects that reports are written as are read back by the names of their fields, in any order.
-/

namespace BatchVerify

namespace Json

/-- The text of a string. -/
def string? : Json → Option String
  | .string text => some text
  | _ => none

/-- The value of a number that is not negative. -/
def count? : Json → Option Nat
  | .integer (.ofNat n) => some n
  | _ => none

/-- What may be missing: `null`, or a value. -/
def optional? {α : Type} (read : Json → Option α) : Json → Option (Option α)
  | .null => some none
  | value => (read value).map some

/-- The value of a number. -/
def integer? : Json → Option Int
  | .integer value => some value
  | _ => none

end Json

/-- The status among the fields of an outcome. -/
def Status.ofFields? (fields : List (String × Json)) : Option Status := do
  match ← (← fields.lookup "status").string? with
  | "succeeded" => some .succeeded
  | "failed" =>
    some <| .failed (← Json.optional? Json.integer? (← fields.lookup "exit_code"))
      (← Json.optional? Json.string? (← fields.lookup "stderr"))
  | "spawn_failed" => some (.notStarted (← (← fields.lookup "reason").string?))
  | _ => none

/-- The outcome that an object writes. -/
def Outcome.ofJson? : Json → Option Outcome
  | .object fields => do
    let bytes (name : String) : Option Bytes := do
      some (Utf8.encode (← (← fields.lookup name).string?))
    some
      { group := ← bytes "group", source := ⟨← bytes "source"⟩, target := ⟨← bytes "target"⟩
        status := ← Status.ofFields? fields }
  | _ => none

/-- The report that an object writes. -/
def Report.ofJson? : Json → Option Report
  | .object fields => do
    let count (name : String) : Option Nat := do (← fields.lookup name).count?
    match ← fields.lookup "outcomes" with
    | .array items =>
      some
        { groupsVisited := ← count "groups_visited", processed := ← count "processed"
          succeeded := ← count "succeeded", failed := ← count "failed"
          outcomes := ← items.mapM Outcome.ofJson? }
    | _ => none
  | _ => none

/-- The report in the content of a report file. -/
def Report.read? (content : Bytes) : Option Report := do
  Report.ofJson? (← Json.parse? (← Utf8.decode? content))

end BatchVerify
