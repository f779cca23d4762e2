import LineCalculator.FixedPoint
import LineCalculator.Log
import LineCalculator.Settings.File

/-!
# What a command shows

A command shows lines of text, lines of complaint, tables, remarks below tables, and log records.
Sequences that steer a terminal are taken out of lines.
-/

namespace LineCalculator.CommandLine

/-- A table with its title and cells. -/
structure Panel where
  title : String
  columns : List String
  rows : List (List String)
  deriving DecidableEq, Repr

/-- Something that is shown. -/
inductive Event where
  | text (shown : String)
  | complaint (shown : String)
  | panel (panel : Panel)
  | remark (shown : String)
  | record (record : Record)
  deriving DecidableEq, Repr

/-- Why a command stops in an unforeseen way. -/
inductive Abort where
  | settings (failure : LoadFailure)
  | places (error : FixedPointError)
  | serializer
  deriving DecidableEq, Repr

/-- How a command ends. -/
inductive Ending where
  | exit (code : Nat)
  | aborted (reason : Abort)
  deriving DecidableEq, Repr

/-- What a command shows, in order, and how it ends. -/
structure Output where
  events : List Event
  ending : Ending
  deriving DecidableEq, Repr

/-- The rest of a text after the parameters and the letter of a sequence that steers a terminal. -/
def afterSequence? (cs : List Char) : Option (List Char) :=
  match cs.dropWhile fun c => c = ';' || c = '?' || c.isDigit with
  | c :: rest => if c.isAlpha then some rest else none
  | [] => none

/-- What is left of a text without the sequences that steer a terminal; every step uses up a
character. -/
def plainWithin : Nat → List Char → List Char
  | 0, _ => []
  | _ + 1, [] => []
  | fuel + 1, c :: cs =>
    match cs with
    | '[' :: rest =>
      match if c.toNat = 27 then afterSequence? rest else none with
      | some rest => plainWithin fuel rest
      | none => c :: plainWithin fuel cs
    | _ => c :: plainWithin fuel cs

/-- A text without the sequences that steer a terminal.  This is what the echo makes of a line that is
not shown on a terminal; a text without escape characters it leaves as it is. -/
def plain (text : String) : String :=
  String.ofList (plainWithin text.toList.length text.toList)

/-- A line of text. -/
def say (line : String) : Event :=
  .text (plain line ++ "\n")

/-- A line of complaint. -/
def complain (message : String) : Event :=
  .complaint (plain ("Error: " ++ message) ++ "\n")

/-- The records that matter at least as much as a level. -/
def told (level : Severity) (log : List Record) : List Event :=
  (log.filter fun record => record.reaches level).map Event.record

namespace Output

/-- The output with other events before it. -/
def after (before : List Event) (o : Output) : Output :=
  { o with events := before ++ o.events }

/-- All lines of text. -/
def texts (o : Output) : String :=
  String.join (o.events.filterMap fun
    | .text shown => some shown
    | _ => none)

/-- All lines of complaint. -/
def complaints (o : Output) : String :=
  String.join (o.events.filterMap fun
    | .complaint shown => some shown
    | _ => none)

/-- All records. -/
def records (o : Output) : List Record :=
  o.events.filterMap fun
    | .record record => some record
    | _ => none

end Output

end LineCalculator.CommandLine
