import LineCalculator.Decimal
import LineCalculator.Text.Slice

/-!
# Tokens

A token says what was found and where: its kind, the value of a number, and the span of source that
it covers.  The default token stands for the absence of one.  The grammar never looks at the span,
so it reads *words*, which are tokens with their text in place of it.
-/

namespace LineCalculator

/-- What a token is.  `invalid` is the kind of a token that has not been found. -/
inductive Kind where
  | invalid
  | name
  | number
  | plus
  | minus
  | star
  | slash
  | caret
  | lparen
  | rparen
  | lbracket
  | rbracket
  deriving DecidableEq, Repr

namespace Kind

/-- The kind's own name. -/
def label : Kind → String
  | invalid => "invalid"
  | name => "name"
  | number => "number"
  | plus => "plus"
  | minus => "minus"
  | star => "star"
  | slash => "slash"
  | caret => "caret"
  | lparen => "lparen"
  | rparen => "rparen"
  | lbracket => "lbracket"
  | rbracket => "rbracket"

/-- The kind as it is shown to the user: operators and brackets as they are typed. -/
def display : Kind → String
  | invalid => "Invalid"
  | name => "Name"
  | number => "Number"
  | plus => "+"
  | minus => "-"
  | star => "*"
  | slash => "/"
  | caret => "^"
  | lparen => "("
  | rparen => ")"
  | lbracket => "["
  | rbracket => "]"

/-- The operator or bracket that a character is. -/
def ofMark? : Char → Option Kind
  | '+' => some plus
  | '-' => some minus
  | '*' => some star
  | '/' => some slash
  | '^' => some caret
  | '(' => some lparen
  | ')' => some rparen
  | '[' => some lbracket
  | ']' => some rbracket
  | _ => none

/-- The bracket that closes an opening one. -/
def closer? : Kind → Option Kind
  | lparen => some rparen
  | lbracket => some rbracket
  | _ => none

end Kind

/-- A kind, a value and a span of source.  The value of a token that is no number is zero. -/
structure Token where
  kind : Kind := .invalid
  value : Float := 0
  start : Int := 0
  stop : Int := 0
  deriving DecidableEq, Repr

/-- What the grammar sees of a token: its kind, the characters it covers, and its value. -/
structure Word where
  kind : Kind
  text : List Char
  value : Float
  deriving DecidableEq, Repr

namespace Token

/-- Whether a token has been found. -/
def isFound (t : Token) : Bool :=
  t.kind != .invalid

/-- The number of characters between the ends of the span. -/
def length (t : Token) : Int :=
  t.stop - t.start

/-- The characters of the source that a token covers. -/
def text (source : List Char) (t : Token) : List Char :=
  Text.slice source t.start t.stop

/-- The word that a token of the source is. -/
def word (source : List Char) (t : Token) : Word :=
  ⟨t.kind, t.text source, t.value⟩

end Token

end LineCalculator
