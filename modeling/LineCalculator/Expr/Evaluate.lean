import LineCalculator.Expr
import LineCalculator.Limits

/-!
# The value of an expression

Evaluation follows binary64 arithmetic, which never fails: a quotient by zero is an infinity or
not-a-number, and a power that is too large an infinity.  It fails only on what the language does
not know, and the first such thing in the order of evaluation is reported.  A call is looked up
before its argument is evaluated; an operator is looked at after its operands.
-/

namespace LineCalculator

/-- What evaluation does not know. -/
inductive EvalError where
  | unknownFunction (name : String)
  | unknownUnaryOp (symbol : String)
  | unknownBinaryOp (symbol : String)
  | unknownNode (kind : Foreign)
  deriving DecidableEq, Repr

/-- The name under which a message mentions the type of a value. -/
def Foreign.typeName : Foreign → String
  | null => "NoneType"
  | boolean => "bool"
  | text => "str"
  | integer => "int"
  | real => "float"
  | record => "dict"
  | other typeName => typeName

/-- The error in words. -/
def EvalError.message : EvalError → String
  | unknownFunction name => "Unknown function: " ++ name
  | unknownUnaryOp symbol => "Unknown unary op: " ++ symbol
  | unknownBinaryOp symbol => "Unknown binary op: " ++ symbol
  | unknownNode kind => "Unknown expression type: " ++ kind.typeName

/-- Why a tree has no value: it holds something unknown, or it has too many levels. -/
inductive EvalFailure where
  | unknown (error : EvalError)
  | tooDeep
  deriving DecidableEq, Repr

/-- The function that a name stands for. -/
def Names.function? (name : String) : Option Function :=
  match lookup name with
  | some (.function fn _) => some fn
  | _ => none

/-- Applies a binary operator. -/
def BinaryOp.apply (op : BinaryOp) (x y : Float) : Except EvalFailure Float :=
  match op with
  | add => .ok (x + y)
  | sub => .ok (x - y)
  | mul => .ok (x * y)
  | div => .ok (x / y)
  | pow => .ok (x.pow y)
  | unknown symbol => .error (.unknown (.unknownBinaryOp symbol))

/-- Applies a unary operator. -/
def UnaryOp.apply (op : UnaryOp) (x : Float) : Except EvalFailure Float :=
  match op with
  | neg => .ok (-x)
  | unknown symbol => .error (.unknown (.unknownUnaryOp symbol))

namespace Expr

/-- The value of a tree of at most the given number of levels. -/
def evalWithin : Nat → Expr → Except EvalFailure Float
  | 0, _ => .error .tooDeep
  | _ + 1, number value => .ok value
  | _ + 1, constant _ value => .ok value
  | n + 1, binary op left right => do
    let x ← left.evalWithin n
    let y ← right.evalWithin n
    op.apply x y
  | n + 1, unary op operand => do
    let x ← operand.evalWithin n
    op.apply x
  | n + 1, call name arg =>
    match Names.function? name with
    | some fn => do
      let x ← arg.evalWithin n
      return fn.apply x
    | none => .error (.unknown (.unknownFunction name))
  | _ + 1, foreign kind => .error (.unknown (.unknownNode kind))

/-- The value of a tree. -/
def eval [Limits] (e : Expr) : Except EvalFailure Float :=
  e.evalWithin Limits.valueLevels

end Expr

end LineCalculator
