import LineCalculator.Text.Quoted
import LineCalculator.Expr.Text

/-!
# Expressions as JSON

Every node is an object whose fields come in a fixed order.  The text has no white space at all, or
one field a line with a given number of spaces for every level.
-/

namespace LineCalculator

/-- The values that describe a tree: texts, numbers already written, and objects. -/
inductive JsonValue where
  | null
  | number (chars : List Char)
  | text (s : String)
  | object (fields : List (String × JsonValue))

namespace JsonValue

/-- A character inside a JSON text. -/
def escapedChar (c : Char) : List Char :=
  if c = '"' ∨ c = '\\' then ['\\', c]
  else if c = '\n' then ['\\', 'n']
  else if c = '\r' then ['\\', 'r']
  else if c = '\t' then ['\\', 't']
  else if c.toNat = 8 then ['\\', 'b']
  else if c.toNat = 12 then ['\\', 'f']
  else if c.toNat < 0x20 then '\\' :: 'u' :: Text.hexDigits 4 c.toNat
  else [c]

/-- A JSON text with its quotes. -/
def quotedChars (s : String) : List Char :=
  '"' :: (s.toList.flatMap escapedChar ++ ['"'])

mutual

/-- The characters of a value without white space. -/
def compact : JsonValue → List Char
  | null => ['n', 'u', 'l', 'l']
  | number chars => chars
  | text s => quotedChars s
  | object fields => '\x7b' :: (compactFields fields ++ ['\x7d'])

/-- The fields of an object without white space. -/
def compactFields : List (String × JsonValue) → List Char
  | [] => []
  | [(name, value)] => quotedChars name ++ ':' :: value.compact
  | (name, value) :: fields =>
    quotedChars name ++ ':' :: (value.compact ++ ',' :: compactFields fields)

end

/-- A new line with the indentation of a level. -/
def lineBreak (indent level : Nat) : List Char :=
  '\n' :: List.replicate (indent * level) ' '

mutual

/-- The characters of a value that stands at a level, with one field a line. -/
def pretty (indent level : Nat) : JsonValue → List Char
  | null => ['n', 'u', 'l', 'l']
  | number chars => chars
  | text s => quotedChars s
  | object fields =>
    '\x7b' :: (prettyFields indent (level + 1) fields ++ lineBreak indent level ++ ['\x7d'])

/-- The fields of an object, each on a line of its own. -/
def prettyFields (indent level : Nat) : List (String × JsonValue) → List Char
  | [] => []
  | [(name, value)] =>
    lineBreak indent level ++ quotedChars name ++ ':' :: ' ' :: pretty indent level value
  | (name, value) :: fields =>
    lineBreak indent level ++ quotedChars name ++
      ':' :: ' ' :: (pretty indent level value ++ ',' :: prettyFields indent level fields)

end

end JsonValue

/-- JSON numbers are written plainly from `0.00001` up to below `10 ^ 16`, otherwise with an exponent
that is not filled up. -/
def jsonLayout : Decimal.Layout := ⟨-5, 16, 1⟩

/-- A number in JSON, which has none for infinity and not-a-number. -/
def jsonNumber (x : Float) : JsonValue :=
  if x.isNaN || x.isInf then .null else .number (jsonLayout.writeFloat x)

namespace Expr

/-- The tree as a JSON value. -/
def toJson : Expr → JsonValue
  | number value => .object [("value", jsonNumber value)]
  | constant name value => .object [("name", .text name), ("value", jsonNumber value)]
  | binary op left right =>
    .object [("op", .text op.symbol), ("left", left.toJson), ("right", right.toJson)]
  | unary op operand => .object [("op", .text op.symbol), ("operand", operand.toJson)]
  | call name arg => .object [("name", .text name), ("arg", arg.toJson)]
  | foreign _ => .null

/-- The JSON text of a tree.  The serializer that writes it counts levels on its own and refuses a tree
that has too many, which may well have a value and a written form. -/
def json? [Limits] (indent : Option Nat) (e : Expr) : Option String :=
  if e.fits Limits.jsonLevels then
    match indent with
    | none => some (String.ofList e.toJson.compact)
    | some n => some (String.ofList (e.toJson.pretty n 0))
  else none

end Expr

end LineCalculator
