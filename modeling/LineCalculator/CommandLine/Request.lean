import LineCalculator.CommandLine.Count
import LineCalculator.CommandLine.Words

/-!
# What is asked for

A command line has options for the whole program, a command, and the options and arguments of the
command.  Showing the version or the help, and completing words for a shell, go before everything
else, but only if no option is wrong.
-/

namespace LineCalculator.CommandLine

/-- A command with its options. -/
inductive Command where
  | evaluate (expression : String) (strict : Option Bool) (precision : Option Nat)
    (file : Option String)
  | converse (strict : Option Bool) (file : Option String)
  | tokens (expression : String)
  | tree (expression : String) (asJson : Bool)
  | functions
  deriving DecidableEq, Repr

/-- What is asked for. -/
inductive Request where
  | version
  | help
  | completion (isInstalled : Bool)
  | run (logLevel : Option String) (command : Command)
  deriving DecidableEq, Repr

/-- The option that shows the help. -/
def helpOption : String × Bool := ("--help", false)

/-- The options of the whole program. -/
def globalOptions : Options :=
  [("--version", false), ("-v", false), ("--log-level", true), ("--install-completion", false),
    ("--show-completion", false), helpOption]

/-- The options that choose settings. -/
def settingsOptions : Options :=
  [("--strict", false), ("--sentinel", false), ("--config", true), ("-c", true), helpOption]

/-- The options of the command that evaluates an expression. -/
def evaluateOptions : Options :=
  [("--precision", true), ("-p", true)] ++ settingsOptions

/-- The options of the command that shows a tree. -/
def treeOptions : Options :=
  [("--json", false), helpOption]

/-- The only argument. -/
def oneArgument (items : List Item) : Option String :=
  match arguments items with
  | [text] => some text
  | _ => none

/-- The choice between strictness and infinities. -/
def strictOf (items : List Item) : Option Bool :=
  (lastOption ["--strict", "--sentinel"] items).map fun name => name = "--strict"

/-- The file of settings that is named, if any.  Its path cannot hold a null character. -/
def fileOf (items : List Item) : Option (Option String) :=
  match lastValue ["--config", "-c"] items with
  | none => some none
  | some path => if '\x00' ∈ path.toList then none else some (some path)

/-- The number of places that is chosen, if any.  It must be a count. -/
def precisionOf (items : List Item) : Option (Option Nat) :=
  match lastValue ["--precision", "-p"] items with
  | none => some none
  | some text => (count? text).map some

/-- The commands: the options of each, and what its parts ask for. -/
def commands : List (String × Options × (List Item → Option Command)) :=
  [("eval", evaluateOptions, fun items => do
      return .evaluate (← oneArgument items) (strictOf items) (← precisionOf items)
        (← fileOf items)),
    ("repl", settingsOptions, fun items => do
      guard (arguments items = [])
      return .converse (strictOf items) (← fileOf items)),
    ("tokens", [helpOption], fun items => do
      return .tokens (← oneArgument items)),
    ("ast", treeOptions, fun items => do
      return .tree (← oneArgument items) (optionNames items |>.contains "--json")),
    ("functions", [helpOption], fun items => do
      guard (arguments items = [])
      return .functions)]

/-- The first of the parts that goes before everything else. -/
def urgent? (items : List Item) : Option Request :=
  (optionNames items).findSome? fun name =>
    if name = "--version" ∨ name = "-v" then some .version
    else if name = "--install-completion" then some (.completion true)
    else if name = "--show-completion" then some (.completion false)
    else if name = "--help" then some .help
    else none

/-- What the words after a command's name ask for. -/
def commandRequest (logLevel : Option String) (options : Options)
    (interpret : List Item → Option Command) (words : List String) : Option Request := do
  let items ← scan options true words
  match urgent? items with
  | some request => return request
  | none => return .run logLevel (← interpret items)

/-- What a command line asks for, if it can be understood.  Words that start with no command's name
may still ask for what goes before everything else. -/
def request (words : List String) : Option Request := do
  let items ← scan globalOptions false words
  match urgent? items with
  | some request => return request
  | none =>
    match arguments items with
    | [] => none
    | name :: others =>
      match commands.lookup name with
      | some (options, interpret) =>
        commandRequest (lastValue ["--log-level"] items) options interpret others
      | none => urgent? (← scan globalOptions false (name :: others))

end LineCalculator.CommandLine
