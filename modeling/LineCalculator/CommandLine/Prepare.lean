import LineCalculator.CommandLine.Output
import LineCalculator.Settings.Load

/-!
# Settings for a command

A command that calculates first loads its settings.  A level of the log that is chosen on the command
line wins over the one that is loaded, and has to keep the same rule.
-/

namespace LineCalculator.CommandLine

/-- What a command can look at: a folder, the environment, and the text that is typed. -/
structure Surroundings where
  folder : Folder
  environment : Environment := {}
  typed : List Char := []

/-- The settings with a level of the log that was chosen on the command line. -/
def withLevel (level : Option String) (s : Settings) : Except LoadFailure Settings :=
  match level with
  | none => .ok s
  | some "" => .ok s
  | some name => (Settings.check { s with logLevel := Text.upper name }).mapError .rejected

/-- Loads the settings and the level of the log that they choose, or says how the program ends
without them.  Settings that are rejected are complained about.  Records of the loading are shown from
warnings on. -/
def prepare [Limits] (around : Surroundings) (level file : Option String) :
    List Event × Except Ending (Settings × Severity) :=
  let (loaded, log) := Settings.load around.folder around.environment file
  let events := told .warning log
  match loaded.bind (withLevel level) with
  | .ok s => (events, .ok (s, s.level?.getD .warning))
  | .error (.rejected e) => (events ++ [complain e.message], .error (.exit 1))
  | .error failure => (events, .error (.aborted (.settings failure)))

/-- The settings with what was chosen on the command line. -/
def chosen (strict : Option Bool) (precision : Option Nat) (s : Settings) : Settings :=
  { s with strict := strict.getD s.strict, precision := (precision.map Int.ofNat).getD s.precision }

end LineCalculator.CommandLine
