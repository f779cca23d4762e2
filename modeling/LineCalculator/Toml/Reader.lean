import LineCalculator.Toml.Scalar

/-!
# Readers of a settings file

A reader takes something from the front of a text or finds a fault.  A text that breaks a rule of the
format is invalid, whichever rule it is; two limits are kept apart from the rules, the number of
digits of an integer and the depth of nested values.
-/

namespace LineCalculator.Toml

/-- Why a text has no table. -/
inductive Fault where
  | invalid
  | tooManyDigits
  | tooDeep
  deriving DecidableEq, Repr

/-- A reader of text, which may find a fault. -/
abbrev Reader := StateT (List Char) (Except Fault)

namespace Reader

/-- What a matcher finds, or a fault. -/
def demand {α : Type} (m : Matcher α) : Reader α := do
  match m (← get) with
  | some (a, rest) => set rest; return a
  | none => throw .invalid

/-- What a matcher finds, if anything. -/
def find? {α : Type} (m : Matcher α) : Reader (Option α) :=
  demand (Matcher.optionally m)

/-- Whether the text starts with the given characters. -/
def startsWith (cs : List Char) : Reader Bool := do
  return cs.isPrefixOf (← get)

/-- Takes the given characters if the text starts with them, and says whether it did. -/
def accept (cs : List Char) : Reader Bool := do
  let found ← startsWith cs
  if found then modify (·.drop cs.length)
  return found

/-- Takes the given characters, with which the text has to start. -/
def expect (cs : List Char) : Reader Unit := do
  if !(← accept cs) then throw .invalid

/-- Whether a character may stand between the parts of a statement. -/
def isSpace (c : Char) : Bool :=
  c = ' ' || c = '\t'

/-- Whether a character may stand between the items of an array. -/
def isArraySpace (c : Char) : Bool :=
  isSpace c || c = '\n'

/-- Drops the space in front. -/
def skipSpace : Reader Unit :=
  modify fun cs => cs.dropWhile isSpace

/-- Whether a character may stand in no text and no comment that ends with its line. -/
def isControl (c : Char) : Bool :=
  (c.toNat < 32 && c ≠ '\t') || c.toNat = 127

/-- Whether a character may stand in no text of several lines. -/
def isBlockControl (c : Char) : Bool :=
  isControl c && c ≠ '\n'

/-- Drops a comment, which goes up to the end of the line. -/
def skipComment : Reader Unit := do
  if ← accept ['#'] then
    let comment ← demand (Matcher.takeWhile (· ≠ '\n'))
    if comment.any isControl then throw .invalid

/-- Drops space, line ends and comments, at most so many times. -/
def skipFillerWithin : Nat → Reader Unit
  | 0 => return ()
  | fuel + 1 => do
    modify fun cs => cs.dropWhile isArraySpace
    if ← startsWith ['#'] then
      skipComment
      skipFillerWithin fuel

/-- Drops space, line ends and comments. -/
def skipFiller : Reader Unit := do
  skipFillerWithin ((← get).length + 1)

end Reader

end LineCalculator.Toml
