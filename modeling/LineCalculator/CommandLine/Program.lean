import LineCalculator.CommandLine.Calculate
import LineCalculator.CommandLine.Display
import LineCalculator.CommandLine.Prepare
import LineCalculator.CommandLine.Request

/-!
# The program

`run` is everything that the program does with the words of a command line: what it shows, and how it
ends.
-/

namespace LineCalculator.CommandLine

/-- The version of the program. -/
def version : String := "0.1.0"

/-- Shows the version. -/
def showVersion : Output :=
  ⟨[say ("calcula version " ++ version), say "", say "Environment:"], .exit 0⟩

/-- Refuses to complete words: the shell around the program is not known. -/
def refuseCompletion (isInstalled : Bool) : Output :=
  if isInstalled then ⟨[say "Shell None is not supported."], .exit 1⟩
  else ⟨[.complaint "Shell  not supported.\n"], .exit 1⟩

/-- Prepares settings and goes on with them. -/
def withSettings [Limits] (around : Surroundings) (level file : Option String)
    (body : Settings → Severity → Output) : Output :=
  match prepare around level file with
  | (events, .ok (s, least)) => (body s least).after events
  | (events, .error ending) => ⟨events, ending⟩

/-- Does a command. -/
def Command.run [Limits] (around : Surroundings) (level : Option String) : Command → Output
  | evaluate expression strict precision file =>
    withSettings around level file fun s least =>
      CommandLine.evaluate (chosen strict precision s) least expression.toList
  | converse strict file =>
    withSettings around level file fun s least =>
      CommandLine.converse (chosen strict none s) least (typedLines around.typed)
  | tokens expression => showTokens expression.toList
  | tree expression asJson => showTree expression.toList asJson
  | functions => showFunctions

/-- What the program does with the words of a command line. -/
def run [Limits] (around : Surroundings) (words : List String) : Output :=
  match request words with
  | none => ⟨[], .exit 2⟩
  | some .version => showVersion
  | some .help => ⟨[], .exit 0⟩
  | some (.completion isInstalled) => refuseCompletion isInstalled
  | some (.run level command) => command.run around level

end LineCalculator.CommandLine
