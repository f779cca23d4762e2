import LineCalculator.CommandLine.Program

/-!
# The program

Connects the commands to the files, the environment and the streams of a process.  Lines are
answered as they are typed.
-/

namespace LineCalculator.CommandLine

/-- A panel with its cells set apart by bars. -/
def Panel.drawing (p : Panel) : String :=
  let row (cells : List String) := " | ".intercalate cells ++ "\n"
  p.title ++ "\n" ++ row p.columns ++ String.join (p.rows.map row)

/-- Shows an event on the stream where it belongs. -/
def Event.show : Event → IO Unit
  | text shown => IO.print shown
  | complaint shown => IO.eprint shown
  | panel p => IO.print p.drawing
  | remark shown => IO.println shown
  | record r => IO.eprintln ("[" ++ r.severity.label ++ "] " ++ r.channel ++ ": " ++ r.message)

/-- The code of an ending for the process. -/
def Ending.code : Ending → UInt32
  | exit code => code.toUInt32
  | aborted _ => 1

/-- Shows all events and gives the code of the ending. -/
def Output.show (o : Output) : IO UInt32 := do
  o.events.forM Event.show
  return o.ending.code

/-- What lies at a path of the process. -/
def contentOf (path : String) : IO Content := do
  try
    return .file (← IO.FS.readFile path)
  catch
    | .noFileOrDirectory .. => return .missing
    | .permissionDenied .. => return .unreadable
    | .invalidArgument .. => return .tooLong
    | _ => return .folder

/-- The surroundings of the process, of whose files only one can be seen. -/
def surroundings (file : Option String) : IO Surroundings := do
  let path := file.getD Settings.fileName
  let content ← contentOf path
  let location := (← IO.currentDir).toString
  let environment : Environment :=
    { precision := ← IO.getEnv "CALCULA_PRECISION"
      maxLine := ← IO.getEnv "CALCULA_MAX_LINE"
      logLevel := ← IO.getEnv "CALCULA_LOG_LEVEL"
      strict := ← IO.getEnv "CALCULA_STRICT" }
  let folder : Folder := ⟨location, fun asked => if asked = path then content else .missing⟩
  return { folder, environment }

/-- Shows what belongs to some lines, and how the program ends if it ends at one of them. -/
def answerAll (s : Settings) (level : Severity) : List (List Char) → IO (Option Ending)
  | [] => return none
  | line :: lines => do
    (say s.prompt).show
    let (events, ending) := turn s level line
    events.forM Event.show
    if ending.isSome then return ending else answerAll s level lines

/-- Answers lines as they are typed. -/
partial def converseTyped (s : Settings) (level : Severity) : IO Ending := do
  (say s.prompt).show
  (← IO.getStdout).flush
  let typed ← (← IO.getStdin).getLine
  if typed.isEmpty then
    endOfLines.show
    return .exit 0
  else
    match typedLines typed.toList with
    | [] => converseTyped s level
    | line :: lines => do
      let (events, ending) := turn s level line
      events.forM Event.show
      match ending with
      | some ending => return ending
      | none =>
        match ← answerAll s level lines with
        | some ending => return ending
        | none => converseTyped s level

/-- Does what the words of a command line ask for. -/
def perform (words : List String) : IO UInt32 := do
  match request words with
  | some (.run level (.converse strict file)) => do
    let (events, prepared) := prepare (← surroundings file) level file
    events.forM Event.show
    match prepared with
    | .error ending => return ending.code
    | .ok (s, least) => return (← converseTyped (chosen strict none s) least).code
  | some (.run _ (.evaluate _ _ _ file)) =>
    (run (← surroundings file) words).show
  | _ => (run (← surroundings none) words).show

end LineCalculator.CommandLine

/-- The program. -/
def main (words : List String) : IO UInt32 :=
  LineCalculator.CommandLine.perform words
