/-!
# Binary64 numbers and the numbers that round to them

The bits of a double without its sign, read as a natural number, are its *code*.  Codes of finite
doubles grow with the value, the next code up belongs to the next double up, and the code is even
exactly when the significand is.  Values are counted in units of `2 ^ -1074`, of which every
finite double holds a whole number; the code of infinity counts as `2 ^ 1024`, the value that would
follow the largest finite double.

Rounding is stated on codes: a quotient rounds to the code whose value is nearest, and from the
middle between two codes to the even one.
-/

-- A power of a number is the built-in one, also where the powers of monoids are in sight.
attribute [instance (high)] instPowNat
attribute [default_instance (high + 1)] instPowNat

namespace LineCalculator.Binary64

/-- How many units make one. -/
def unitsPerOne : Nat := 2 ^ 1074

/-- The code of infinity. -/
def infinity : Nat := 0x7FF0000000000000

/-- The value of a code in units. -/
def units (code : Nat) : Nat :=
  let fraction := code % 2 ^ 52
  let exponent := code / 2 ^ 52
  if exponent = 0 then fraction else (2 ^ 52 + fraction) * 2 ^ (exponent - 1)

/-- The code of a double, which leaves out its sign. -/
def code (x : Float) : Nat :=
  x.toBits.toNat % 2 ^ 63

/-- Whether the sign bit of a double is set. -/
def isSigned (x : Float) : Bool :=
  2 ^ 63 ≤ x.toBits.toNat

/-- The double without sign that has a given code. -/
def ofCode (code : Nat) : Float :=
  Float.ofBits (UInt64.ofNat code)

/-- Twice the middle, in units, between a code's value and the next one. -/
def middle (code : Nat) : Nat :=
  units code + units (code + 1)

/-- The greatest code, up to infinity, whose value is at most the given number of units.  Its
significand is what is left of the number when all but 53 of its binary digits are dropped. -/
def floorCode (count : Nat) : Nat :=
  let dropped := count.log2 - 52
  min infinity (dropped * 2 ^ 52 + count / 2 ^ dropped)

/-- The code nearest to the quotient `num / den`: from the middle to the even code, and to infinity
from the middle above the largest finite double on. -/
def nearest (num den : Nat) : Nat :=
  let target := num * unitsPerOne
  let low := floorCode (target / den)
  if low = infinity then infinity
  else if 2 * target < middle low * den then low
  else if 2 * target = middle low * den ∧ low % 2 = 0 then low
  else low + 1

/-- Whether the quotient `num / den` lies in the interval that rounds to a finite code.  The ends of
the interval belong to it exactly when the code is even. -/
def roundsTo (num den code : Nat) : Bool :=
  let target := 2 * (num * unitsPerOne)
  let below := code = 0 ∨ middle (code - 1) * den < target ∨
    (middle (code - 1) * den = target ∧ code % 2 = 0)
  let above := target < middle code * den ∨ (target = middle code * den ∧ code % 2 = 0)
  below ∧ above

/-- Rounds a quotient to a whole number, halves to the even neighbour. -/
def roundHalfEven (num den : Nat) : Nat :=
  let quotient := num / den
  let twiceRest := 2 * (num % den)
  if twiceRest < den ∨ (twiceRest = den ∧ quotient % 2 = 0) then quotient else quotient + 1

end LineCalculator.Binary64
