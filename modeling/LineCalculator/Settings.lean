import LineCalculator.Log
import LineCalculator.Text.UpperCase

/-!
# Settings

The settings of the calculator have defaults, and a few rules that they must keep: a number of places
is not negative, a line length is positive, and a level of the log is known, in whatever case it is
written.
-/

namespace LineCalculator

/-- How the calculator reads lines and shows results. -/
structure Settings where
  precision : Int := 6
  strict : Bool := false
  maxLineLength : Int := 2000
  prompt : String := "please enter an equation or 'q' to quit."
  logLevel : String := "WARNING"
  deriving DecidableEq, Repr

/-- Why a value does not give an integer. -/
inductive NotInteger where
  | flag
  | malformed
  | structured
  deriving DecidableEq, Repr

/-- What can be wrong with settings.  Values are given as they are shown. -/
inductive SettingsError where
  | negativePrecision (given : Int)
  | noLineLength (given : Int)
  | unknownLevel (given : String)
  | notInteger (name given : String) (reason : NotInteger)
  | notFlag (name given : String)
  | missingFile (path : String)
  | malformedFile (path : String)
  deriving DecidableEq, Repr

/-- The names of the levels in alphabetic order. -/
def levelNames : String :=
  let severities : List Severity := [.critical, .debug, .error, .info, .warning]
  ", ".intercalate (severities.map Severity.label)

/-- The error in words. -/
def SettingsError.message : SettingsError → String
  | negativePrecision given => "precision must be >= 0, got " ++ toString given
  | noLineLength given => "max_line_length must be > 0, got " ++ toString given
  | unknownLevel given =>
    "Unknown log level '" ++ given ++ "'. Valid values: " ++ levelNames
  | notInteger name given _ => name ++ " must be an integer, got " ++ given
  | notFlag name given => name ++ " must be true or false, got " ++ given
  | missingFile path => "Config file not found: " ++ path
  | malformedFile path => "Invalid TOML in " ++ path

namespace Settings

/-- The level of the log, if its name is known. -/
def level? (s : Settings) : Option Severity :=
  Severity.ofLabel? (Text.upper s.logLevel)

/-- The settings, if they keep the rules; otherwise the first rule that they break. -/
def check (s : Settings) : Except SettingsError Settings :=
  if s.precision < 0 then .error (.negativePrecision s.precision)
  else if s.maxLineLength ≤ 0 then .error (.noLineLength s.maxLineLength)
  else if s.level?.isNone then .error (.unknownLevel s.logLevel)
  else .ok s

end Settings

end LineCalculator
