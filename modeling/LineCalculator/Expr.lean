import LineCalculator.Names

/-!
# Expression trees

A tree may be built by hand, so it can hold operators, function names and even values that the
language does not know; the parser builds only trees without them.  Brackets leave no trace in a
tree.
-/

namespace LineCalculator

/-- Operators between two operands. -/
inductive BinaryOp where
  | add
  | sub
  | mul
  | div
  | pow
  | unknown (symbol : String)
  deriving DecidableEq, Repr

/-- Operators in front of one operand. -/
inductive UnaryOp where
  | neg
  | unknown (symbol : String)
  deriving DecidableEq, Repr

/-- Values that are no expression, by the type of the value. -/
inductive Foreign where
  | null
  | boolean
  | text
  | integer
  | real
  | record
  | other (typeName : String)
  deriving DecidableEq, Repr

/-- An expression. -/
inductive Expr where
  | number (value : Float)
  | constant (name : String) (value : Float)
  | binary (op : BinaryOp) (left right : Expr)
  | unary (op : UnaryOp) (operand : Expr)
  | call (name : String) (arg : Expr)
  | foreign (kind : Foreign)
  deriving DecidableEq, Repr

/-- The character of a binary operator. -/
def BinaryOp.symbol : BinaryOp → String
  | add => "+"
  | sub => "-"
  | mul => "*"
  | div => "/"
  | pow => "^"
  | unknown symbol => symbol

/-- The character of a unary operator. -/
def UnaryOp.symbol : UnaryOp → String
  | neg => "-"
  | unknown symbol => symbol

namespace Expr

/-- Whether a tree has at most the given number of levels. -/
def fits : Nat → Expr → Bool
  | 0, _ => false
  | n + 1, binary _ left right => fits n left && fits n right
  | n + 1, unary _ operand => fits n operand
  | n + 1, call _ arg => fits n arg
  | _ + 1, _ => true

/-- Whether a tree holds nothing but what the language knows how to write. -/
def isWritable : Expr → Bool
  | number _ => true
  | constant _ _ => true
  | binary (.unknown _) _ _ => false
  | binary _ left right => left.isWritable && right.isWritable
  | unary (.unknown _) _ => false
  | unary .neg operand => operand.isWritable
  | call _ arg => arg.isWritable
  | foreign _ => false

end Expr

end LineCalculator
