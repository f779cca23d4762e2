import LineCalculator.Toml.Document
import LineCalculator.Toml.Quotation

/-!
# Keys and values of a settings file

A key has parts with dots between them; a part is bare or in quotes.  A value may hold other values,
so its reader is made from the readers of the values inside it.
-/

namespace LineCalculator.Toml.Reader

/-! ## Keys -/

/-- Whether a character may stand in a key without quotes. -/
def isBareKeyChar (c : Char) : Bool :=
  c.isAlphanum || c = '-' || c = '_'

/-- One part of a key. -/
def keyPart : Reader String := do
  if ← accept ['"'] then return String.ofList (← quoted)
  else if ← accept ['\''] then return String.ofList (← literal)
  else
    match ← demand (Matcher.takeWhile isBareKeyChar) with
    | [] => throw .invalid
    | cs => return String.ofList cs

/-- The parts of a key after the first, at most so many. -/
def keyRest : Nat → Reader Path
  | 0 => return []
  | fuel + 1 => do
    skipSpace
    if ← accept ['.'] then
      skipSpace
      let part ← keyPart
      return part :: (← keyRest fuel)
    else return []

/-- A key with its parts, and the space after it. -/
def key : Reader Path := do
  let first ← keyPart
  return first :: (← keyRest ((← get).length + 1))

/-- A key and its value, which `value` reads. -/
def pair (value : Reader Value) : Reader (Path × Value) := do
  let path ← key
  expect ['=']
  skipSpace
  return (path, ← value)

/-! ## Values -/

/-- The items of an array after its bracket, at most so many. -/
def items (value : Reader Value) : Nat → Reader (List Value)
  | 0 => throw .invalid
  | fuel + 1 => do
    skipFiller
    if ← accept [']'] then return []
    else
      let item ← value
      skipFiller
      if ← accept [','] then return item :: (← items value fuel)
      else
        expect [']']
        return [item]

/-- The entries of an inline table, at most so many, added to those it has. -/
def inlineEntries (value : Reader Value) : Nat → InlineTable → Reader Table
  | 0, _ => throw .invalid
  | fuel + 1, t => do
    let (path, item) ← pair value
    match t.set? path item with
    | none => throw .invalid
    | some t => do
      skipSpace
      if ← accept [','] then
        skipSpace
        inlineEntries value fuel t
      else
        expect ['\x7d']
        return t.entries

/-- The rest of an inline table after its brace. -/
def inlineTable (value : Reader Value) : Reader Table := do
  skipSpace
  if ← accept ['\x7d'] then return []
  else inlineEntries value ((← get).length + 1) {}

/-- A date, a date with a time, or a time, if one stands here. -/
def moment? : Reader (Option Value) := do
  match ← find? Matcher.moment with
  | none => return (← find? Matcher.clock).map Value.clock
  | some (day, time) =>
    if !day.isValid then throw .invalid
    match time with
    | none => return some (.date day)
    | some (clock, ahead) => return some (.moment ⟨day, clock, ahead⟩)

/-- A number. -/
def number : Reader Value := do
  match ← find? Matcher.numeral with
  | some numeral => numeral.value?.getDM (throw .tooManyDigits)
  | none => return .real (← demand Matcher.numberWord)

/-- A value; `item` reads what an array holds and `field` what an inline table holds. -/
def valueOf (item field : Reader Value) : Reader Value := do
  if ← accept ['"', '"', '"'] then return .text (String.ofList (← block '"'))
  else if ← accept ['"'] then return .text (String.ofList (← quoted))
  else if ← accept ['\'', '\'', '\''] then return .text (String.ofList (← block '\''))
  else if ← accept ['\''] then return .text (String.ofList (← literal))
  else if ← accept ['t', 'r', 'u', 'e'] then return .boolean true
  else if ← accept ['f', 'a', 'l', 's', 'e'] then return .boolean false
  else if ← accept ['['] then return .array (← items item ((← get).length + 1))
  else if ← accept ['\x7b'] then return .table (← inlineTable field)
  else (← moment?).getDM number

/-- A value within a budget of depth.  Every array around it has taken two units, every inline table
three, and three must be left. -/
def value : Nat → Reader Value
  | budget + 3 => valueOf (value (budget + 1)) (value budget)
  | _ => throw .tooDeep

end LineCalculator.Toml.Reader
