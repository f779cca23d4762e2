import LineCalculator.Text.Integer

/-!
# Counts on the command line

A count is a natural number in the digits of ASCII.  It may be surrounded by white space, have one
sign, start with any number of zeros, among which underscores may stand freely, and end with a
fraction that holds nothing but zeros.  Behind the leading zeros only single underscores may stand,
and only between digits.  A minus sign is possible only in front of zero, and leading zeros may stand
on either side of it, though not on both.
-/

namespace LineCalculator.CommandLine

/-- The value of a digit of ASCII. -/
def plainDigit? (c : Char) : Option Nat :=
  if c.isDigit then some (c.toNat - '0'.toNat) else none

/-- The characters in front of a fraction of zeros, or all of them if there is no point. -/
def withoutFraction? (cs : List Char) : Option (List Char) :=
  match cs.dropWhile (· ≠ '.') with
  | [] => some cs
  | _ :: places =>
    if places ≠ [] ∧ places.all (· = '0') then some (cs.takeWhile (· ≠ '.')) else none

/-- Whether characters behind leading zeros and a minus sign are a zero; an underscore may set it
off. -/
def isSetOffZero (cs : List Char) : Bool :=
  cs = ['0'] ∨ cs = ['_', '0']

/-- The number that characters without a sign and a fraction stand for.  When zeros are all there is,
the last character is one. -/
def wholeCount? (cs : List Char) : Option Nat :=
  match cs with
  | '0' :: others =>
    match others.dropWhile fun c => c = '0' || c = '_' with
    | [] => if cs.getLast? = some '0' then some 0 else none
    | digits => Text.natural? plainDigit? digits
  | digits => Text.natural? plainDigit? digits

/-- The number when leading zeros may have a minus sign behind them. -/
def lateSignCount? (cs : List Char) : Option Nat :=
  match cs.head?, cs.dropWhile fun c => c = '0' || c = '_' with
  | some '0', '-' :: digits => if isSetOffZero digits then some 0 else none
  | _, _ => wholeCount? cs

/-- The count that a text stands for. -/
def count? (s : String) : Option Nat := do
  match Text.trimBy Text.isBlank s.toList with
  | '-' :: cs => (wholeCount? (← withoutFraction? cs)).filter (· = 0)
  | '+' :: cs => lateSignCount? (← withoutFraction? cs)
  | cs => lateSignCount? (← withoutFraction? cs)

end LineCalculator.CommandLine
