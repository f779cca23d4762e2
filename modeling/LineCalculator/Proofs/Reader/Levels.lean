import LineCalculator.Parser

/-!
# Readers without frames

The levels of the grammar as readers that are made from one another.  They do not count the frames of
the procedures, only the brackets, functions and minus signs that are open, so what they read does not
depend on how the calls are arranged.  As long as its frames do not run out a procedure does the same.
-/

namespace LineCalculator.Parser

/-- Reads a power of the given operands. -/
def power (operand : Parser Expr) : Parser Expr :=
  chain advance powerOp? operand

/-- Reads a product of powers of the given operands. -/
def product (operand : Parser Expr) : Parser Expr :=
  chain advance productOp? (power operand)

/-- Reads a sum of products of powers of the given operands. -/
def sum (operand : Parser Expr) : Parser Expr :=
  chain advance sumOp? (product operand)

/-- Reads a sum of the given operands, unless a fault stands where it should start. -/
def expr (operand : Parser Expr) : Parser Expr := do
  checkEnding
  sum operand

/-- Reads the bracket in front, a sum of the given operands, and the closing bracket. -/
def group (operand : Parser Expr) (closer : Kind) : Parser Expr := do
  advance
  let e ← expr operand
  expect closer
  return e

/-- Reads the argument of a function: a group, or a power of the given operands. -/
def argument (operand : Parser Expr) : Parser Expr := do
  match (← peek).bind fun w => w.kind.closer? with
  | some closer => group operand closer
  | none => power operand

/-- Reads a constant, or a function with its argument. -/
def named (operand : Parser Expr) (name : String) : Parser Expr := do
  match Names.lookup name with
  | none => refuse (.unknownName name)
  | some (.constant value _) => do
    advance
    return .constant name value
  | some (.function _ _) => do
    advance
    return .call name (← argument operand)

/-- Reads a term; what it holds inside is made of the given operands. -/
def term (operand : Parser Expr) : Parser Expr := do
  match ← peek with
  | none => refuse (.unexpected none)
  | some w =>
    match w.kind with
    | .number => do
      advance
      return .number w.value
    | .name => named operand (String.ofList w.text)
    | .lparen => group operand .rparen
    | .lbracket => group operand .rbracket
    | _ => refuse (.unexpected (some w))

/-- Reads a minus sign with its operand, or a term. -/
def unary (operand : Parser Expr) : Parser Expr := do
  if (← peek).map Word.kind = some .minus then
    advance
    return .unary .neg (← operand)
  else
    term operand

/-- Reads an operand inside which at most the given number of brackets, functions and minus signs
are open at once. -/
def operand : Nat → Parser Expr
  | 0 => throw .tooDeep
  | depth + 1 => unary (operand depth)

/-- Reads a sum that is followed by nothing. -/
def line (operand : Parser Expr) : Parser Expr := do
  let e ← expr operand
  match ← peek with
  | none => return e
  | some w => refuse (.trailing w)

end LineCalculator.Parser
