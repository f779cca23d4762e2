import LineCalculator.Text.Graphic

/-!
# Quoted text

A text is shown between quotes so that its ends and its invisible characters can be seen.  Single
quotes are used, or double quotes when the text holds a single quote and no double one.  The
backslash and the chosen quote get a backslash, line breaks and tabs their letters, and every other
character that is not graphic its code point in hexadecimal.
-/

namespace LineCalculator.Text

/-- A number in hexadecimal digits, filled up with zeros to a least width. -/
def hexDigits (width n : Nat) : List Char :=
  (Nat.toDigits 16 n).leftpad width '0'

/-- The code point of a character that is not shown, in the shortest of three widths. -/
def codePoint (n : Nat) : List Char :=
  if n < 0x100 then '\\' :: 'x' :: hexDigits 2 n
  else if n < 0x10000 then '\\' :: 'u' :: hexDigits 4 n
  else '\\' :: 'U' :: hexDigits 8 n

/-- A character as it stands between the given quotes. -/
def escaped (quote c : Char) : List Char :=
  if c = quote ∨ c = '\\' then ['\\', c]
  else if c = '\t' then ['\\', 't']
  else if c = '\n' then ['\\', 'n']
  else if c = '\r' then ['\\', 'r']
  else if isGraphic c then [c]
  else codePoint c.toNat

/-- The quote that a text is shown in. -/
def chosenQuote (cs : List Char) : Char :=
  if '\'' ∈ cs ∧ '"' ∉ cs then '"' else '\''

/-- The characters of a text between quotes. -/
def quotedChars (cs : List Char) : List Char :=
  let quote := chosenQuote cs
  quote :: (cs.flatMap (escaped quote) ++ [quote])

/-- A text between quotes. -/
def quoted (s : String) : String :=
  String.ofList (quotedChars s.toList)

/-- A character between quotes. -/
def quotedChar (c : Char) : String :=
  String.ofList (quotedChars [c])

end LineCalculator.Text
