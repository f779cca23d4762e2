import LineCalculator.Decimal
import LineCalculator.Expr
import LineCalculator.Limits

/-!
# The written form of an expression

Every binary operation is written in round brackets and every call with its argument in them, so the
written form of a tree shows its structure whatever the priorities of the operators are.
-/

namespace LineCalculator

/-- Numbers are written plainly from `0.0001` up to below `10 ^ 16`, otherwise with an exponent of
at least two digits. -/
def numberLayout : Decimal.Layout := ⟨-4, 16, 2⟩

/-- A number as expressions and messages show it. -/
def numberChars (x : Float) : List Char :=
  if x.isNaN then ['n', 'a', 'n']
  else if x.isInf then (if Binary64.isSigned x then ['-', 'i', 'n', 'f'] else ['i', 'n', 'f'])
  else numberLayout.writeFloat x

/-- A number as expressions and messages show it. -/
def numberText (x : Float) : String :=
  String.ofList (numberChars x)

namespace Expr

/-- The characters of the written form. -/
def chars : Expr → List Char
  | number value => numberChars value
  | constant name _ => name.toList
  | binary op left right =>
    '(' :: (left.chars ++ ' ' :: (op.symbol.toList ++ ' ' :: (right.chars ++ [')'])))
  | unary op operand => op.symbol.toList ++ operand.chars
  | call name arg => name.toList ++ '(' :: (arg.chars ++ [')'])
  | foreign _ => []

/-- The written form of a tree, unless it has too many levels. -/
def text? [Limits] (e : Expr) : Option String :=
  if e.fits Limits.textLevels then some (String.ofList e.chars) else none

end Expr

end LineCalculator
