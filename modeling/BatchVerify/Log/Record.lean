import BatchVerify.Text.Terminal

/-!
# Log records

A record has a level, the place in the program that speaks, a message and named values.
-/

namespace BatchVerify.Log

/-- How serious a record is, the most serious first. -/
inductive Level where
  | error
  | warn
  | info
  | debug
  | trace
  deriving DecidableEq, Repr

namespace Level

/-- The more serious a level, the smaller its number. -/
def verbosity : Level → Nat
  | .error => 1
  | .warn => 2
  | .info => 3
  | .debug => 4
  | .trace => 5

/-- How a level is written in a log line. -/
def label : Level → String
  | .error => "ERROR"
  | .warn => "WARN"
  | .info => "INFO"
  | .debug => "DEBUG"
  | .trace => "TRACE"

end Level

/-- The part of the program that speaks. -/
inductive Speaker where
  | configuration
  | batch
  | tree
  deriving DecidableEq, Repr

/-- The name by which filters know a part of the program. -/
def Speaker.target : Speaker → String
  | .configuration => "smt_batch::app::config::load_config"
  | .batch => "smt_batch::app::commands::batch"
  | .tree => "smt_batch::services::adapters::source_tree_filesystem"

/-- One thing that is told. -/
structure Record where
  level : Level
  speaker : Speaker
  message : String
  values : List (String × String) := []
  deriving DecidableEq, Repr

/-- A message as it is written in a log line: it cannot steer a terminal. -/
def Record.shownMessage (record : Record) : String :=
  String.ofList (record.message.toList.flatMap Terminal.harmless)

/-- A record as a line, without its time. Values are written as they are. -/
def Record.line (record : Record) : String :=
  let values := record.values.map fun (name, value) => name ++ "=" ++ value
  record.level.label ++ " " ++ record.speaker.target ++ ": " ++
    " ".intercalate (record.shownMessage :: values)

end BatchVerify.Log
