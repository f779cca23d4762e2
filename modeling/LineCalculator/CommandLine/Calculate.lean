import LineCalculator.Calculator
import LineCalculator.CommandLine.Output
import LineCalculator.Settings
import LineCalculator.Text.Lines

/-!
# Calculating on the command line

One command evaluates an expression; the other answers line after line.  What is shown for a line
depends on that line and the settings alone.
-/

namespace LineCalculator.CommandLine

/-- The line that shows the value of a source. -/
def resultLine (source : List Char) (value : String) : Event :=
  say ("result of equation '" ++ String.ofList source ++ "' = " ++ value)

/-- What is shown of an outcome, and whether it is not a complaint.  An error is complained about in
strict mode and otherwise shown as infinity. -/
def report (s : Settings) (o : Outcome) : Except FixedPointError (Event × Bool) :=
  match s.strict, o.error with
  | true, some error => .ok (complain (Diagnostic.about error o.source o.position).text, false)
  | _, _ => (fixedPoint s.precision o.valueOrInfinity).map fun v => (resultLine o.source v, true)

/-- Evaluates an expression. -/
def evaluate [Limits] (s : Settings) (level : Severity) (expression : List Char) : Output :=
  let (outcome, log) := calculate expression
  let output : Output :=
    match report s outcome with
    | .ok (event, isFine) => ⟨[event], .exit (if isFine then 0 else 1)⟩
    | .error e => ⟨[], .aborted (.places e)⟩
  output.after (told level log)

/-- The record of a line that is too long. -/
def rejectedLine (line : List Char) : Record :=
  ⟨.info, "calcula.cli.evaluate", "Rejected line of " ++ toString line.length ++ " characters"⟩

/-- Whether a line asks for the end. -/
def isFarewell (line : List Char) : Bool :=
  line.head? = some 'q' || line.head? = some 'Q'

/-- What is shown for a line that does not ask for the end, and why nothing can follow it. -/
def answer [Limits] (s : Settings) (level : Severity) (line : List Char) :
    List Event × Option Abort :=
  let text := stripTerminator line
  if s.maxLineLength < text.length then
    (told level [rejectedLine text] ++
      [complain ("line is longer than " ++ toString s.maxLineLength ++ " characters")], none)
  else
    let (outcome, log) := calculate text
    match report s outcome with
    | .ok (event, _) => (told level log ++ [event], none)
    | .error e => (told level log, some (.places e))

/-- What is shown for a line, and how the program ends if it ends there. -/
def turn [Limits] (s : Settings) (level : Severity) (line : List Char) :
    List Event × Option Ending :=
  if isFarewell line then ([say "calculator program exiting."], some (.exit 0))
  else
    let (events, reason) := answer s level line
    (events, reason.map Ending.aborted)

/-- What is shown when no line is left. -/
def endOfLines : Event :=
  say "end of input, exiting."

/-- The lines of a typed text, whatever ends them. -/
def typedLines (typed : List Char) : List (List Char) :=
  Text.lines (Text.plainLines typed)

/-- Answers line after line, each after a prompt, until a line asks for the end or there is none. -/
def converse [Limits] (s : Settings) (level : Severity) : List (List Char) → Output
  | [] => ⟨[say s.prompt, endOfLines], .exit 0⟩
  | line :: lines =>
    match turn s level line with
    | (events, some ending) => ⟨say s.prompt :: events, ending⟩
    | (events, none) => (converse s level lines).after (say s.prompt :: events)

end LineCalculator.CommandLine
