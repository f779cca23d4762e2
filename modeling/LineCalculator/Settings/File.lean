import LineCalculator.Limits
import LineCalculator.Settings
import LineCalculator.Text.Integer
import LineCalculator.Text.Lines
import LineCalculator.Toml.Read

/-!
# Settings from a file

The settings are the entries of one table of the file.  A number of places or a line length may be
given as an integer, as a number with a fraction, which is cut off, or as a text that stands for an
integer.  Texts may be given as any value.
-/

namespace LineCalculator

/-- Why settings could not be loaded.  An error is reported; the other failures are not expected. -/
inductive LoadFailure where
  | rejected (error : SettingsError)
  | infiniteInteger
  | sectionNotTable
  | isFolder
  | unreadable
  | pathTooLong
  | tooManyDigits
  | tooDeep
  deriving DecidableEq, Repr

/-- What keeps a value from being shown, as a failure. -/
def LoadFailure.ofObstacle : Toml.Obstacle → LoadFailure
  | .tooManyDigits => .tooManyDigits
  | .tooDeep => .tooDeep

namespace Settings

/-- The integer part of a finite number. -/
def truncate (x : Float) : Int :=
  let magnitude : Int := (Binary64.units (Binary64.code x) / Binary64.unitsPerOne : Nat)
  if Binary64.isSigned x then -magnitude else magnitude

/-- What a value is shown as, unless something in it cannot be shown. -/
def written [Limits] (write : Toml.Value → String) (value : Toml.Value) :
    Except LoadFailure String :=
  match value.obstacle? Limits.shownLevels with
  | none => .ok (write value)
  | some obstacle => .error (.ofObstacle obstacle)

/-- A value that is not an integer, as an error. -/
def notInteger [Limits] {α : Type} (name : String) (value : Toml.Value) (reason : NotInteger) :
    Except LoadFailure α := do
  let given ← written Toml.Value.spelled value
  throw (.rejected (.notInteger name given reason))

/-- The integer that a value gives. -/
def integerOf [Limits] (name : String) (value : Toml.Value) : Except LoadFailure Int :=
  match value with
  | .integer n => .ok n
  | .boolean _ => notInteger name value .flag
  | .real x =>
    if x.isNaN then notInteger name value .malformed
    else if x.isInf then .error .infiniteInteger
    else .ok (truncate x)
  | .text s =>
    match Text.integer? s with
    | some n => .ok n
    | none => notInteger name value .malformed
  | _ => notInteger name value .structured

/-- The flag that a value gives. -/
def flagOf [Limits] (name : String) (value : Toml.Value) : Except LoadFailure Bool :=
  match value with
  | .boolean b => .ok b
  | _ => do
    let given ← written Toml.Value.spelled value
    throw (.rejected (.notFlag name given))

/-- The text that a value gives. -/
def textOf [Limits] (value : Toml.Value) : Except LoadFailure String :=
  written Toml.Value.toText value

/-- What an entry of a table gives, or a default. -/
def entry {α : Type} (table : Toml.Table) (name : String)
    (convert : Toml.Value → Except LoadFailure α) (default : α) : Except LoadFailure α :=
  match table.lookup name with
  | none => .ok default
  | some value => convert value

/-- The settings that a table gives.  The first entry in this order that cannot be converted is
reported, and only then the rules are checked. -/
def ofTable [Limits] (table : Toml.Table) : Except LoadFailure Settings := do
  let defaults : Settings := {}
  let precision ← entry table "precision" (integerOf "precision") defaults.precision
  let strict ← entry table "strict" (flagOf "strict") defaults.strict
  let maxLineLength ←
    entry table "max_line_length" (integerOf "max_line_length") defaults.maxLineLength
  let prompt ← entry table "prompt" textOf defaults.prompt
  let logLevel ← entry table "log_level" textOf defaults.logLevel
  (check ⟨precision, strict, maxLineLength, prompt, logLevel⟩).mapError .rejected

/-- The table of a document that holds the settings.  It is empty when the document does not have
it. -/
def section? (document : Toml.Table) : Option Toml.Table :=
  match document.lookup "calcula" with
  | none => some []
  | some (.table entries) => some entries
  | some _ => none

/-- The settings that a document gives. -/
def ofDocument [Limits] (document : Toml.Table) : Except LoadFailure Settings :=
  match section? document with
  | none => .error .sectionNotTable
  | some table => ofTable table

/-- The settings that the text of a file gives; the path is for messages. -/
def ofFile [Limits] (path text : String) : Except LoadFailure Settings :=
  match Toml.read (Text.plainLines text.toList) with
  | .error .invalid => .error (.rejected (.malformedFile path))
  | .error .tooManyDigits => .error .tooManyDigits
  | .error .tooDeep => .error .tooDeep
  | .ok document => ofDocument document

end Settings

end LineCalculator
