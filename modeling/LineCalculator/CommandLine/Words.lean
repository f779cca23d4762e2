/-!
# Options and arguments

The words of a command line are options, the values of options, and arguments.  A long option starts
with two dashes and may carry its value after an equals sign.  A short one is a dash and a letter;
short ones may be run together, and one that takes a value takes the rest of its word, if there is
any.  A value that is not in its option's word is the next word, whatever it looks like.  Two dashes
alone end the options.
-/

namespace LineCalculator.CommandLine

/-- A part of a command line. -/
inductive Item where
  | option (name : String) (value : Option String)
  | argument (text : String)
  deriving DecidableEq, Repr

/-- The options that are known, each with whether it takes a value. -/
abbrev Options := List (String × Bool)

/-- Whether a word is an option or several. -/
def looksLikeOption (word : String) : Bool :=
  match word.toList with
  | '-' :: _ :: _ => true
  | _ => false

/-- Whether a word is a long option. -/
def looksLong (word : String) : Bool :=
  match word.toList with
  | '-' :: '-' :: _ => true
  | _ => false

/-- The options in a word, and the one that waits for its value. -/
structure Reading where
  items : List Item
  waiting : Option String := none

/-- Reads a long option. -/
def readLong (options : Options) (word : String) : Option Reading :=
  let cs := word.toList
  let name := String.ofList (cs.takeWhile (· ≠ '='))
  let value :=
    if '=' ∈ cs then some (String.ofList ((cs.dropWhile (· ≠ '=')).drop 1)) else none
  match options.lookup name, value with
  | none, _ => none
  | some false, none => some ⟨[.option name none], none⟩
  | some false, some _ => none
  | some true, none => some ⟨[], some name⟩
  | some true, some v => some ⟨[.option name (some v)], none⟩

/-- Reads short options that are run together. -/
def readShort (options : Options) : List Char → Option Reading
  | [] => some ⟨[], none⟩
  | c :: cs =>
    let name := String.ofList ['-', c]
    match options.lookup name with
    | none => none
    | some false => do
      let reading ← readShort options cs
      return ⟨.option name none :: reading.items, reading.waiting⟩
    | some true =>
      if cs = [] then some ⟨[], some name⟩
      else some ⟨[.option name (some (String.ofList cs))], none⟩

/-- Reads the options in a word. -/
def readOption (options : Options) (word : String) : Option Reading :=
  if looksLong word then readLong options word else readShort options (word.toList.drop 1)

/-- The parts of a command line, unless it has an unknown option, a value that is missing or one that
is not wanted.  When arguments may not be mixed with options, the first argument ends the options. -/
def scan (options : Options) (mixed : Bool) : List String → Option (List Item)
  | [] => some []
  | word :: words =>
    if word = "--" then some (words.map Item.argument)
    else if looksLikeOption word then
      match readOption options word with
      | none => none
      | some ⟨items, none⟩ => (scan options mixed words).map (items ++ ·)
      | some ⟨items, some name⟩ =>
        match words with
        | [] => none
        | value :: words =>
          (scan options mixed words).map fun others =>
            items ++ .option name (some value) :: others
    else if mixed then (scan options mixed words).map (Item.argument word :: ·)
    else some ((word :: words).map Item.argument)

/-- The arguments among the parts. -/
def arguments (items : List Item) : List String :=
  items.filterMap fun
    | .argument text => some text
    | .option _ _ => none

/-- The names of the options among the parts. -/
def optionNames (items : List Item) : List String :=
  items.filterMap fun
    | .argument _ => none
    | .option name _ => some name

/-- The last value that is given to an option under one of its names. -/
def lastValue (names : List String) (items : List Item) : Option String :=
  (items.filterMap fun
    | .option name (some value) => if name ∈ names then some value else none
    | _ => none).getLast?

/-- The last of the given options that occurs. -/
def lastOption (names : List String) (items : List Item) : Option String :=
  ((optionNames items).filter fun name => name ∈ names).getLast?

end LineCalculator.CommandLine
