import BatchVerify.Decimal.Numeral
import BatchVerify.Log.Pattern.Basic
import BatchVerify.Log.Record
import BatchVerify.Text.Utf8

/-!
# Log filters

A filter is a list of directives. A directive has the form `target[{field}]=level`, where each part
may be missing; it lets records pass up to its level, if their target starts with its target and
they have its field. Of the directives that fit a record the most specific one decides, and a
record that none fits does not pass.
-/

namespace BatchVerify.Log

/-- The least serious level that passes; none if nothing does. -/
abbrev Threshold := Option Level

namespace Threshold

/-- The thresholds by their numbers. -/
def numbered : List Threshold :=
  [none, some .error, some .warn, some .info, some .debug, some .trace]

/-- How thresholds are named. -/
def named : List (String × Threshold) :=
  [ ("off", none), ("error", some .error), ("warn", some .warn), ("info", some .info),
    ("debug", some .debug), ("trace", some .trace) ]

/-- The number that decimal digits write, which may follow a plus sign. -/
def number? (word : List Char) : Option Nat :=
  let digits := match word with
    | '+' :: digits => digits
    | digits => digits
  if digits = [] ∨ digits.any (!·.isDigit) then none
  else some (digits.foldl (fun n c => n * 10 + (c.toNat - '0'.toNat)) 0)

/-- The threshold that a word stands for, by number or by name in any case. -/
def ofWord? (word : List Char) : Option Threshold :=
  match number? word with
  | some n => numbered[n]?
  | none => named.lookup (String.ofList (word.map Char.toLower))

/-- A level passes a threshold. -/
def admits (threshold : Threshold) (level : Level) : Bool :=
  match threshold with
  | some least => level.verbosity ≤ least.verbosity
  | none => false

end Threshold

/-- A rule about records. -/
structure Directive where
  target : Option String := none
  field : Option String := none
  threshold : Threshold
  deriving DecidableEq, Repr

/-- A stretch of a text, in characters from its beginning; one without an end reaches to the end
of the text. -/
structure Stretch where
  start : Nat
  stop : Option Nat
  deriving DecidableEq, Repr

/-- What stands on a stretch of a text. -/
def Stretch.of (stretch : Stretch) (text : List Char) : List Char :=
  (stretch.stop.elim text fun stop => text.take stop).drop stretch.start

/-- Where the parts of a directive stand. -/
structure Directive.Form where
  target : Option Stretch := none
  /-- What brackets name apart from fields. -/
  span : Option Stretch := none
  field : Option Stretch := none
  level : Option Stretch := none
  deriving DecidableEq, Repr

namespace Directive

/-- The level at the end of a directive, after `=`, where `before` characters come before it. -/
def levelPart? (form : Form) (before : Nat) : List Char → Option Form
  | [] => some form
  | '=' :: _ => some { form with level := some ⟨before + 1, none⟩ }
  | _ => none

/-- What follows an opening bracket: a name, a field in braces, or both. -/
def bracketPart? (form : Form) (before : Nat) (text : List Char) : Option Form :=
  let isEnd (c : Char) : Bool := c = ']' || c = '\x7b'
  let stop := before + (text.takeWhile (!isEnd ·)).length
  match text.dropWhile (!isEnd ·) with
  | ']' :: rest => levelPart? { form with span := some ⟨before, some stop⟩ } (stop + 1) rest
  | _ :: rest =>
    let span := if stop = before then none else some ⟨before, some stop⟩
    let last := stop + 1 + (rest.takeWhile (· ≠ '\x7d')).length
    match rest.dropWhile (· ≠ '\x7d') with
    | _ :: ']' :: rest =>
      if last = stop + 1 then none
      else levelPart? { form with span, field := some ⟨stop + 1, some last⟩ } (last + 2) rest
    | _ => none
  | [] => none

/-- A target may start with a letter, a number or one of these. -/
def startsTarget (c : Char) : Bool := c ∈ ['-', ':', '_'] || Text.isAlphanumeric c

/-- Where the parts of a directive stand. What is no more than a target reaches to the end. -/
def form? : List Char → Option Form
  | [] => none
  | '[' :: rest => bracketPart? {} 1 rest
  | c :: rest =>
    if startsTarget c then
      let isEnd (c : Char) : Bool := c = '=' || c = '['
      let stop := 1 + (rest.takeWhile (!isEnd ·)).length
      let target : Stretch := ⟨0, some stop⟩
      match rest.dropWhile (!isEnd ·) with
      | [] => some { target := some ⟨0, none⟩ }
      | '[' :: rest => bracketPart? { target } (stop + 1) rest
      | rest => levelPart? { target } stop rest
    else none

/-- The threshold of a directive with a level part; an empty one lets everything pass. -/
def threshold? (word : List Char) : Option Threshold :=
  if word = [] then some (some .trace) else Threshold.ofWord? word

/-- What a directive asks of fields: that there be one of a name, and perhaps a value for it. A
value is a number or a pattern. -/
structure Demand where
  name : String
  /-- It is asked for a value. -/
  valued : Bool
  deriving DecidableEq, Repr

/-- The demand that a text writes; what follows a second `=` does not count. -/
def Demand.ofText? (text : List Char) : Option Demand :=
  match Pieces.split '=' text with
  | name :: value :: _ =>
    if Numeral.isNumeral value || Pattern.isTaken value then some ⟨String.ofList name, true⟩
    else none
  | _ => some ⟨String.ofList text, false⟩

/-- The directive whose parts stand in a text. A lone word that stands for a level is about all
targets. One about a span, or about the value of a field, lets no record pass. -/
def ofForm? (form : Form) (text : List Char) : Option (Option Directive) := do
  let target := form.target.map (·.of text)
  match form, target with
  | { span := none, field := none, level := none, .. }, some word =>
    match Threshold.ofWord? word with
    | some threshold => some (some { threshold })
    | none => some (some { target := String.ofList word, threshold := some .trace })
  | _, _ =>
    let threshold ← (form.level.map (·.of text)).elim (some (some .trace)) threshold?
    let demand ← match form.field with
      | some field => (Demand.ofText? (field.of text)).map some
      | none => some none
    if form.span.isSome || demand.any (·.valued) then some none
    else some (some { target := target.map String.ofList, field := demand.map (·.name), threshold })

/-- The directive that a text writes. Where its parts stand is told without the blanks around it,
and what they are by those places in the text with the blanks. -/
def ofText? (text : List Char) : Option (Option Directive) := do
  ofForm? (← form? (Text.trim text)) text

/-- A record has the target and the field of a directive. -/
def fits (directive : Directive) (record : Record) : Bool :=
  directive.target.all (fun target => target.toList.isPrefixOf record.speaker.target.toList) &&
    directive.field.all fun field => field = "message" || (record.values.lookup field).isSome

/-- The order of directives by how specific they are: first the length of the target, then the
field. -/
def specificity (directive : Directive) : Nat × Nat × String :=
  ( directive.target.elim 0 fun target => target.length + 1,
    directive.field.elim 0 fun _ => 1,
    directive.field.getD "" )

/-- The directive is at most as specific as another. -/
def leSpecific (a b : Directive) : Bool :=
  match a.specificity, b.specificity with
  | (n, hasField, field), (m, hasField', field') =>
    n < m || (n = m && (hasField < hasField' || (hasField = hasField' && field ≤ field')))

end Directive

/-- The directives of a filter, in the order in which they were given. -/
abbrev Filter := List Directive

namespace Filter

/-- The filter that a text writes: directives with commas between them. -/
def ofText? (text : String) : Option Filter := do
  let texts := (Pieces.split ',' text.toList).filter (· ≠ [])
  let directives ← texts.mapM Directive.ofText?
  some (directives.filterMap id)

/-- The directive that decides about a record: the most specific of those that fit, and the last
of those that are equally specific. -/
def decisive? (filter : Filter) (record : Record) : Option Directive :=
  (filter.filter (·.fits record)).foldl
    (fun best directive => match best with
      | some chosen => if chosen.leSpecific directive then some directive else some chosen
      | none => some directive)
    none

/-- A record passes a filter. -/
def passes (filter : Filter) (record : Record) : Bool :=
  (filter.decisive? record).any fun directive => directive.threshold.admits record.level

/-- The filter for runs without a usable one. -/
def standard (verbose : Bool) : Filter :=
  if verbose then
    [{ target := some "smt_batch", threshold := some .info }, { threshold := some .warn }]
  else [{ threshold := some .warn }]

/-- The filter that the environment asks for, or the standard one if it asks for none that is
understood. -/
def ofEnvironment (verbose : Bool) (wanted : Option Bytes) : Filter :=
  ((wanted.bind Utf8.decode?).bind ofText?).getD (standard verbose)

end Filter

end BatchVerify.Log
