import LineCalculator.Expr.Text
import LineCalculator.Session

/-!
# Calculating one line

`calculate` gives the value of a line or the reason why it has none.  `valueOrInfinity` is for users
of the older convention in which a line without value counts as infinite, so that it cannot be told
from a quotient by zero.
-/

namespace LineCalculator

/-- What came of a line.  A line with a value has no error. -/
structure Outcome where
  source : List Char
  value : Option Float := none
  error : Option String := none
  position : Option Int := none
  deriving DecidableEq, Repr

namespace Outcome

/-- Whether nothing went wrong. -/
def ok (o : Outcome) : Bool :=
  o.error.isNone

/-- What went wrong.  An empty error says no more than that there is no value. -/
def diagnostic (o : Outcome) : Diagnostic :=
  let message := (o.error.filter fun text => text ≠ "").getD "No value"
  .about message o.source o.position

/-- The value, or what went wrong. -/
def unwrap (o : Outcome) : Except Diagnostic Float :=
  match o.value, o.error with
  | some x, none => .ok x
  | _, _ => .error o.diagnostic

/-- The outcome of a line with a value. -/
def success (source : List Char) (x : Float) : Outcome :=
  { source, value := some x }

/-- The outcome of a line with an error. -/
def failure (source : List Char) (e : ExprError) : Outcome :=
  { source, error := some e.message, position := e.position? }

/-- The value of a line, which is infinite when there is an error. -/
def valueOrInfinity (o : Outcome) : Float :=
  match o.error, o.value with
  | none, some x => x
  | _, _ => Binary64.ofCode Binary64.infinity

end Outcome

/-- A line without the line feed at its end and a carriage return before that. -/
def stripTerminator (line : List Char) : List Char :=
  match line.reverse with
  | '\n' :: '\r' :: cs => cs.reverse
  | '\n' :: cs => cs.reverse
  | _ => line

/-- Reads a line as one expression with nothing after it. -/
def readLine [Limits] (line : List Char) : Step Expr :=
  let first := (Lexer.ofSource line).advance
  match first.result with
  | .error e => ⟨.error e, first.lexer, first.log⟩
  | .ok _ => first.lexer.parse .line

/-- The value of a line. -/
def evaluateLine [Limits] (line : List Char) : Step Float :=
  (readLine line).andThen fun e => e.eval.mapError ExprError.ofEval

/-- The channel on which results are told. -/
def calculatorChannel : String :=
  "calcula.core.expression_lang.calculator"

/-- The record of a line with a value. -/
def successRecord (line : List Char) (x : Float) : Record :=
  ⟨.debug, calculatorChannel,
    "Evaluated " ++ Text.quoted (String.ofList line) ++ " = " ++ numberText x⟩

/-- The record of a line with an error. -/
def failureRecord (line : List Char) (e : ExprError) : Record :=
  let reason := match e with
    | .tooDeep => "nested too deeply"
    | e => e.message
  ⟨.info, calculatorChannel,
    "Could not evaluate " ++ Text.quoted (String.ofList line) ++ ": " ++ reason⟩

/-- The outcome of a line, and what was told on the way to it. -/
def calculate [Limits] (source : List Char) : Outcome × List Record :=
  let line := stripTerminator source
  let step := evaluateLine line
  match step.result with
  | .ok x => (.success line x, step.log ++ [successRecord line x])
  | .error e => (.failure line e, step.log ++ [failureRecord line e])

/-- The value of a line, or infinity. -/
def calculatedValue [Limits] (source : List Char) : Float :=
  (calculate source).1.valueOrInfinity

end LineCalculator
