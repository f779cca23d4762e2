import LineCalculator.Settings.File

/-!
# Settings from the environment

Four variables of the environment override settings.  A flag that is not recognised changes nothing
and is told to the log.
-/

namespace LineCalculator

/-- The values of the variables that are set. -/
structure Environment where
  precision : Option String := none
  maxLine : Option String := none
  logLevel : Option String := none
  strict : Option String := none
  deriving DecidableEq, Repr

/-- The flag that a word stands for. -/
def flag? (word : String) : Option Bool :=
  let plain := Text.trim (word.map Char.toLower)
  if plain ∈ ["1", "true", "yes", "on"] then some true
  else if plain ∈ ["0", "false", "no", "off", ""] then some false
  else none

namespace Environment

/-- The integer that a variable gives, if it is set. -/
def integer [Limits] (name : String) (value : Option String) (default : Int) :
    Except LoadFailure Int :=
  match value with
  | none => .ok default
  | some text => Settings.integerOf name (.text text)

/-- The record of a flag that is not recognised. -/
def unknownFlag (word : String) (kept : Bool) : Record :=
  ⟨.warning, "calcula.core.config",
    "Unknown CALCULA_STRICT value '" ++ word ++ "'. Valid values: true, false. Keeping " ++
      (if kept then "True" else "False") ++ "."⟩

/-- The flag that is set, or the one to keep, and what is told about it. -/
def flag (value : Option String) (kept : Bool) : Bool × List Record :=
  match value with
  | none => (kept, [])
  | some word =>
    match flag? word with
    | some b => (b, [])
    | none => (kept, [unknownFlag word kept])

/-- Settings with what the environment overrides, and what is told about it. -/
def override [Limits] (env : Environment) (s : Settings) :
    Except LoadFailure Settings × List Record :=
  let integers : Except LoadFailure (Int × Int) := do
    let precision ← integer "CALCULA_PRECISION" env.precision s.precision
    let maxLineLength ← integer "CALCULA_MAX_LINE" env.maxLine s.maxLineLength
    return (precision, maxLineLength)
  match integers with
  | .error failure => (.error failure, [])
  | .ok (precision, maxLineLength) =>
    let logLevel := (env.logLevel.map fun name => Text.upper (Text.trim name)).getD s.logLevel
    let (strict, log) := flag env.strict s.strict
    let overridden : Settings := { s with precision, maxLineLength, strict, logLevel }
    (overridden.check.mapError .rejected, log)

/-- What the environment makes of settings that may have failed to load.  It never mends a
failure. -/
def apply [Limits] (env : Environment) (base : Except LoadFailure Settings) :
    Except LoadFailure Settings × List Record :=
  match base with
  | .error failure => (.error failure, [])
  | .ok s => env.override s

end Environment

end LineCalculator
