import BatchVerify.Config.Basic
import BatchVerify.Text.Quoted
import BatchVerify.Decimal.Shortest
import BatchVerify.Toml.Excerpt

/-!
# The schema of a configuration document

A document has up to three sections, each a table of its fields or an array of their
values in order. A field that is missing takes its default. The first thing out of place, in the
order of the document, is reported with its place.
-/

namespace BatchVerify

open Toml (Key Node Span)

/-- What a document holds that the schema does not allow. -/
inductive Mismatch where
  /-- A key that names no field. -/
  | unknownField (name : String) (fields : List String)
  /-- A policy that does not exist. -/
  | unknownVariant (name : String)
  /-- A value of another type than the field's. -/
  | wrongType (found expected : String)
  /-- A number that does not fit in 32 bits without sign. -/
  | outOfRange (value : Int)
  /-- A policy is neither a text nor a table. -/
  | notPolicy
  /-- A policy is a table without an entry. -/
  | noVariant
  /-- A policy is a table with several entries. -/
  | manyVariants
  /-- The entry of a policy's table is neither a table nor an array. -/
  | scalarContent (found : String)
  /-- The entry of a policy's table is a table or an array with something in it. -/
  | someContent
  /-- The entry of a policy's table is a sequence of tables with headers. -/
  | repeatedContent
  deriving DecidableEq, Repr

/-- A mismatch and its place, which is filled in by whoever first knows one. -/
structure SchemaFault where
  mismatch : Mismatch
  span : Option Span
  deriving DecidableEq, Repr

namespace Mismatch

/-- The names that were possible, as part of a sentence. -/
def alternatives (names : List String) : String :=
  match names with
  | [first, second] => "expected `" ++ first ++ "` or `" ++ second ++ "`"
  | _ => "expected one of " ++ ", ".intercalate (names.map fun name => "`" ++ name ++ "`")

/-- The text of a mismatch. -/
def message : Mismatch → String
  | .unknownField name fields => "unknown field `" ++ name ++ "`, " ++ alternatives fields
  | .unknownVariant name =>
    "unknown variant `" ++ name ++ "`, " ++
      alternatives [FailurePolicy.keepGoing.spelling, FailurePolicy.abort.spelling]
  | .wrongType found expected => "invalid type: " ++ found ++ ", expected " ++ expected
  | .outOfRange value => s!"invalid value: integer `{value}`, expected u32"
  | .notPolicy => "wanted string or table"
  | .noVariant => "wanted exactly 1 element, found 0 elements"
  | .manyVariants => "wanted exactly 1 element, more than 1 element"
  | .scalarContent found => "expected table, found " ++ found
  | .someContent => "expected empty table"
  | .repeatedContent => "expected empty array"

end Mismatch

namespace Schema

/-- A node as it is named when another type was expected. -/
def describe : Node → String
  | .string _ text => "string " ++ Text.quote text
  | .integer _ value => s!"integer `{value}`"
  | .float _ value => "floating point `" ++ value.text ++ "`"
  | .boolean _ value => s!"boolean `{value}`"
  | .array .. | .tables _ => "sequence"
  | .moment _ | .table .. => "map"

/-- The type of a scalar node. -/
def typeName : Node → String
  | .string .. => "string"
  | .integer .. => "integer"
  | .float .. => "float"
  | .boolean .. => "boolean"
  | .moment _ => "datetime"
  | .array .. | .tables _ => "array"
  | .table .. => "table"

/-- What a reader of nodes answers. -/
abbrev Result (α : Type) := Except SchemaFault α

/-- Refuses a node. -/
def refuse {α : Type} (node : Node) (mismatch : Mismatch) : Result α :=
  .error ⟨mismatch, node.span?⟩

/-- Gives a fault without a place that of the key it was found under. -/
def under {α : Type} (key : Key) : Result α → Result α
  | .error ⟨mismatch, none⟩ => .error ⟨mismatch, some key.span⟩
  | result => result

/-- Gives a fault without a place that of the node it was found in. -/
def within {α : Type} (node : Node) : Result α → Result α
  | .error ⟨mismatch, none⟩ => .error ⟨mismatch, node.span?⟩
  | result => result

/-! ## Fields -/

/-- A path, written as a text. -/
def path : Node → Result Path
  | .string _ text => .ok (Path.ofString text)
  | node => refuse node (.wrongType (describe node) "path string")

/-- A text. -/
def text : Node → Result String
  | .string _ text => .ok text
  | node => refuse node (.wrongType (describe node) "a string")

/-- A whole number of 32 bits without sign. -/
def word : Node → Result UInt32
  | node@(.integer _ value) =>
    if 0 ≤ value ∧ value < 0x100000000 then .ok value.toNat.toUInt32
    else refuse node (.outOfRange value)
  | node => refuse node (.wrongType (describe node) "u32")

/-- A truth value. -/
def flag : Node → Result Bool
  | .boolean _ value => .ok value
  | node => refuse node (.wrongType (describe node) "a boolean")

/-- A policy by its spelling. -/
def variant (name : String) (span : Option Span) : Result FailurePolicy :=
  match FailurePolicy.ofSpelling? name with
  | some policy => .ok policy
  | none => .error ⟨.unknownVariant name, span⟩

/-- What stands under a policy that is written as a table: nothing. -/
def noContent : Node → Result Unit
  | node@(.array _ items) => if items.isEmpty then .ok () else refuse node .someContent
  | node@(.tables elements) => if elements.isEmpty then .ok () else refuse node .repeatedContent
  | node@(.table _ _ entries) => if entries.isEmpty then .ok () else refuse node .someContent
  | node => refuse node (.scalarContent (typeName node))

/-- A policy, written as a text or as a table whose one key spells it. -/
def policy : Node → Result FailurePolicy
  | .string span name => variant name (some span)
  | node@(.table _ _ []) => refuse node .noVariant
  | node@(.table _ _ [(key, content)]) => within node do
    let policy ← variant key.name (some key.span)
    noContent content
    return policy
  | node@(.table _ _ _) => refuse node .manyVariants
  | node => refuse node .notPolicy

/-! ## Sections -/

/-- A field of a section: its name, and how its value is entered. -/
structure Field (α : Type) where
  name : String
  enter : α → Node → Result α

/-- The name of the only key of a date or time, read as a table. -/
def momentKey : String := "$__toml_private_datetime"

/-- The entries of a table, each under the name of a field. -/
def entries {α : Type} (fields : List (Field α)) : List (Key × Node) → α → Result α
  | [], built => .ok built
  | (key, node) :: rest, built => do
    match fields.find? fun field => field.name == key.name with
    | none => .error ⟨.unknownField key.name (fields.map (·.name)), some key.span⟩
    | some field =>
      let built ← under key (field.enter built node)
      entries fields rest built

/-- The items of an array, one for each field in order; further items do not count. -/
def items {α : Type} : List (Field α) → List Node → α → Result α
  | field :: fields, node :: nodes, built => do
    let built ← field.enter built node
    items fields nodes built
  | _, _, built => .ok built

/-- A section with its fields over their defaults. -/
def fieldsOf {α : Type} (title : String) (fields : List (Field α)) (default : α) (node : Node) :
    Result α :=
  within node <|
    match node with
    | .table _ _ found => entries fields found default
    | .array _ nodes | .tables nodes => items fields nodes default
    | .moment _ => refuse node (.unknownField momentKey (fields.map (·.name)))
    | _ => refuse node (.wrongType (describe node) ("struct " ++ title))

/-- The fields of the section `verifier`. -/
def verifierFields : List (Field VerifierSettings) :=
  [ ⟨"program", fun s node => do return { s with program := ← path node }⟩,
    ⟨"mode_flag", fun s node => do return { s with modeFlag := ← text node }⟩,
    ⟨"time_limit_secs", fun s node => do return { s with timeLimit := ← word node }⟩ ]

/-- The fields of the section `layout`. -/
def layoutFields : List (Field Layout) :=
  [ ⟨"output_root", fun s node => do return { s with outputRoot := ← path node }⟩,
    ⟨"source_extension", fun s node => do return { s with sourceExtension := ← text node }⟩,
    ⟨"target_extension", fun s node => do return { s with targetExtension := ← text node }⟩ ]

/-- The fields of the section `run`. -/
def runFields : List (Field RunSettings) :=
  [ ⟨"on_error", fun s node => do return { s with onError := ← policy node }⟩,
    ⟨"capture_stderr", fun s node => do return { s with captureStderr := ← flag node }⟩ ]

/-- The sections of a configuration. -/
def sections : List (Field Config) :=
  [ ⟨"verifier", fun c node => do
      return { c with verifier := ← fieldsOf "VerifierConfig" verifierFields {} node }⟩,
    ⟨"layout", fun c node => do
      return { c with layout := ← fieldsOf "LayoutConfig" layoutFields {} node }⟩,
    ⟨"run", fun c node => do
      return { c with run := ← fieldsOf "RunSettings" runFields {} node }⟩ ]

/-- The configuration that a document writes, defaults filled in, not yet validated. -/
def config (document : Node) : Result Config :=
  fieldsOf "BatchConfig" sections {} document

end Schema

namespace SchemaFault

/-- A fault with its place in a text, and a line end after it. -/
def message (fault : SchemaFault) (text : String) : String :=
  let excerpt := match fault.span with
    | some span => (Toml.Excerpt.ofSpan text.toList span).render
    | none => ""
  excerpt ++ fault.mismatch.message ++ "\n"

end SchemaFault

end BatchVerify
