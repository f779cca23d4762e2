import LineCalculator.Toml.Reader

/-!
# Texts of a settings file

A text stands in single quotes, where every character stands for itself, or in double quotes, where a
backslash starts an escape.  With one quote at each end it lies on one line; with three it may have
several lines, and a backslash at the end of a line hides the line end and all space after it.
-/

namespace LineCalculator.Toml.Reader

/-- The character with the code point that so many hexadecimal digits give. -/
def codePoint (width : Nat) : Reader (List Char) := do
  let digits := (← get).take width
  modify (·.drop width)
  let n := ofDigits 16 digits
  if digits.length = width ∧ digits.all isHexDigit ∧ n.isValidChar then return [Char.ofNat n]
  else throw .invalid

/-- A line end that a backslash hides, with all space around it. -/
def hiddenLineEnd : Reader (List Char) := do
  skipSpace
  match ← get with
  | [] => return []
  | '\n' :: _ => do
    modify fun cs => cs.dropWhile isArraySpace
    return []
  | _ => throw .invalid

/-- What a backslash and the characters after it stand for. -/
def escape (isBlock : Bool) : Reader (List Char) := do
  let c ← (← get).head?.getDM (throw .invalid)
  if isBlock && isArraySpace c then hiddenLineEnd
  else
    modify (·.drop 1)
    match c with
    | 'b' => return [Char.ofNat 8]
    | 't' => return ['\t']
    | 'n' => return ['\n']
    | 'f' => return [Char.ofNat 12]
    | 'r' => return ['\r']
    | '"' => return ['"']
    | '\\' => return ['\\']
    | 'u' => codePoint 4
    | 'U' => codePoint 8
    | _ => throw .invalid

/-- The rest of a text in double quotes, of at most so many pieces, up to and with the quotes that
close it. -/
def quotedRest (isBlock : Bool) : Nat → Reader (List Char)
  | 0 => throw .invalid
  | fuel + 1 => do
    if ← accept (if isBlock then ['"', '"', '"'] else ['"']) then return []
    else
      let c ← demand Matcher.next
      let piece ← if c = '\\' then escape isBlock
        else if if isBlock then isBlockControl c else isControl c then throw .invalid
        else pure [c]
      return piece ++ (← quotedRest isBlock fuel)

/-- The rest of a text in double quotes on one line. -/
def quoted : Reader (List Char) := do
  quotedRest false ((← get).length + 1)

/-- The rest of a text in single quotes on one line. -/
def literal : Reader (List Char) := do
  let cs ← demand (Matcher.takeWhile (· ≠ '\''))
  expect ['\'']
  if cs.any isControl then throw .invalid
  return cs

/-- The rest of a text up to three single quotes, of at most so many characters. -/
def literalBlockRest : Nat → Reader (List Char)
  | 0 => throw .invalid
  | fuel + 1 => do
    if ← accept ['\'', '\'', '\''] then return []
    else
      let c ← demand Matcher.next
      if isBlockControl c then throw .invalid
      return c :: (← literalBlockRest fuel)

/-- Up to two quotes that belong to a text although they follow the three that close it. -/
def extraQuotes (quote : Char) : Reader (List Char) := do
  if ← accept [quote] then
    if ← accept [quote] then return [quote, quote] else return [quote]
  else return []

/-- The rest of a text of several lines.  A line end right after the opening quotes does not count. -/
def block (quote : Char) : Reader (List Char) := do
  let _ ← accept ['\n']
  let fuel := (← get).length + 1
  let cs ← if quote = '"' then quotedRest true fuel else literalBlockRest fuel
  return cs ++ (← extraQuotes quote)

end LineCalculator.Toml.Reader
