import LineCalculator.Decimal

/-!
# Results with a fixed number of places

A result is printed with a chosen number of digits after the point.  Infinities and not-a-number
are printed as words, whatever number is chosen.

The digits are counted in 32 bits.  A number of places that does not fit is refused.  One that fits
only without the digits before the point is accepted, but then no digit is found to be worth
printing and zeros stand in the place of all of them.
-/

namespace LineCalculator

/-- A number of places that nothing finite can be printed with. -/
inductive FixedPointError where
  | negativePlaces
  | tooManyPlaces
  deriving DecidableEq, Repr

/-- The most places that a number can be printed with. -/
def mostPlaces : Int := 2 ^ 31 - 1

/-- The whole part of a finite number without its sign. -/
def wholeOf (x : Float) : Nat :=
  Binary64.units (Binary64.code x) / Binary64.unitsPerOne

/-- Whether the digits of a number, those before the point included, are too many to be counted.  A
whole number of at most fifteen digits is printed without a count. -/
def isMiscounted (places : Int) (x : Float) : Bool :=
  wholeOf x ≠ 0 ∧ mostPlaces < places + (Nat.toDigits 10 (wholeOf x)).length ∧
    ¬ (wholeOf x < 10 ^ 15 ∧ Binary64.units (Binary64.code x) % Binary64.unitsPerOne = 0)

/-- A zero with a sign and a fixed number of digits after the point. -/
def fixedZero (places : Nat) (isSigned : Bool) : List Char :=
  (if isSigned then ['-'] else []) ++ Decimal.fixedChars places 0

/-- A number with a fixed number of digits after the point. -/
def fixedPoint (places : Int) (x : Float) : Except FixedPointError String :=
  if x.isNaN then .ok "nan"
  else if x.isInf then .ok (if Binary64.isSigned x then "-inf" else "inf")
  else if places < 0 then .error .negativePlaces
  else if mostPlaces < places then .error .tooManyPlaces
  else
    .ok <| String.ofList <|
      if isMiscounted places x then fixedZero places.toNat (Binary64.isSigned x)
      else Decimal.fixed places.toNat x

end LineCalculator
