import LineCalculator.Text.Blank
import LineCalculator.Text.DecimalDigit

/-!
# Integers written by hand

An integer may be surrounded by white space and have one sign.  Its digits may be decimal digits of
any script, single underscores may stand between them, and there is a limit to their number.
-/

namespace LineCalculator.Text

/-- The values of digits between which single underscores may stand. -/
def digitValues? (digit? : Char → Option Nat) : List Char → Option (List Nat)
  | [] => none
  | [c] => (digit? c).map fun d => [d]
  | c :: '_' :: cs => return (← digit? c) :: (← digitValues? digit? cs)
  | c :: cs => return (← digit? c) :: (← digitValues? digit? cs)

/-- The most digits of an integer. -/
def mostDigits : Nat := 4300

/-- A natural number without a sign, in the given digits. -/
def natural? (digit? : Char → Option Nat) (cs : List Char) : Option Nat := do
  let digits ← digitValues? digit? cs
  if mostDigits < digits.length then none else some (digits.foldl (fun n d => 10 * n + d) 0)

/-- The integer that a text stands for. -/
def integer? (s : String) : Option Int :=
  match trimBy isBlank s.toList with
  | '+' :: cs => (natural? decimalDigit? cs).map Int.ofNat
  | '-' :: cs => (natural? decimalDigit? cs).map fun n => -(n : Int)
  | cs => (natural? decimalDigit? cs).map Int.ofNat

end LineCalculator.Text
