import LineCalculator.Expr.Text
import LineCalculator.Token

/-!
# The written form of a token

A token is written with its kind, its value if it is a number, and its span.
-/

namespace LineCalculator.Token

/-- The ends of the span. -/
def spanText (t : Token) : String :=
  toString t.start ++ ":" ++ toString t.stop

/-- The written form of a token. -/
def written (t : Token) : String :=
  let value := if t.kind = .number then numberText t.value ++ ", " else ""
  "Token(" ++ t.kind.label ++ ", " ++ value ++ t.spanText ++ ")"

end LineCalculator.Token
