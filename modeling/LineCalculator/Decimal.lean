import LineCalculator.Binary64

/-!
# Decimal numerals

Digits, numerals with a fixed number of places, and the decimal that stands for a double when no
number of places is given: of the decimals that read back to the double those with the fewest
digits, of these the one nearest to it, and of two equally near ones the one with the even last
digit.  All of it is exact arithmetic on natural numbers.
-/

namespace LineCalculator.Decimal

/-- The digits before the point of a plain numeral. -/
def wholePart (cs : List Char) : List Char :=
  cs.takeWhile (· != '.')

/-- The digits after the point of a plain numeral. -/
def fractionPart (cs : List Char) : List Char :=
  (cs.dropWhile (· != '.')).drop 1

/-- The double nearest to a plain numeral: digits with at most one point, where an empty side counts
as zero. -/
def read (cs : List Char) : Float :=
  Binary64.ofCode <|
    Binary64.nearest (Nat.ofDigitChars 10 (wholePart cs ++ fractionPart cs) 0)
      (10 ^ (fractionPart cs).length)

/-- A number given as `n` tenths of the `places`-th kind, written with that many places. -/
def fixedChars (places n : Nat) : List Char :=
  let digits := (Nat.toDigits 10 n).leftpad (places + 1) '0'
  let whole := digits.length - places
  digits.take whole ++ (if places = 0 then [] else '.' :: digits.drop whole)

/-- A finite double written with a fixed number of places: its exact value rounded, halves to the
even neighbour, with a minus sign exactly when its sign bit is set. -/
def fixed (places : Nat) (x : Float) : List Char :=
  let n := Binary64.roundHalfEven (Binary64.units (Binary64.code x) * 10 ^ places)
    Binary64.unitsPerOne
  (if Binary64.isSigned x then ['-'] else []) ++ fixedChars places n

/-- The number `digits * 10 ^ exponent`. -/
structure Scaled where
  digits : Nat
  exponent : Int
  deriving Repr, DecidableEq

/-- The double nearest to a decimal.  Far outside the range of doubles only the size of the number
counts. -/
def Scaled.toFloat (d : Scaled) : Float :=
  let magnitude : Int := (Nat.toDigits 10 d.digits).length + d.exponent
  Binary64.ofCode <|
    if d.digits = 0 ∨ magnitude < -400 then 0
    else if 400 < magnitude then Binary64.infinity
    else Binary64.nearest (d.digits * 10 ^ d.exponent.toNat) (10 ^ (-d.exponent).toNat)

/-- The finest grid on which decimals are searched is `10 ^ -324`: half the gap between two doubles
is always wider. -/
def finest : Nat := 324

/-- The value of a code, rounded down to the finest grid and counted in its steps. -/
def stepsOf (code : Nat) : Nat :=
  Binary64.units code * 10 ^ finest / Binary64.unitsPerOne

/-- Whether `n` steps of the grid `10 ^ (k - 324)` read back to a code. -/
def readsBack (code k n : Nat) : Bool :=
  Binary64.roundsTo (n * 10 ^ k) (10 ^ finest) code

/-- The number of steps of the grid `10 ^ (k - 324)` that stands for a code: of the two neighbours of
its value on the grid one that reads back, the nearer if both do, and of two equally near ones the
even one. -/
def onGrid (code k : Nat) : Option Nat :=
  let low := stepsOf code / 10 ^ k
  match readsBack code k low, readsBack code k (low + 1) with
  | false, false => none
  | true, false => some low
  | false, true => some (low + 1)
  | true, true =>
    let twice := 2 * (Binary64.units code * 10 ^ finest)
    let middle := (2 * low + 1) * 10 ^ k * Binary64.unitsPerOne
    if twice < middle ∨ (twice = middle ∧ low % 2 = 0) then some low else some (low + 1)

/-- Tries the grids from `10 ^ (k - 324)` down to the finest one. -/
def searchGrids (code : Nat) : Nat → Scaled
  | 0 => ⟨(onGrid code 0).getD (stepsOf code), -finest⟩
  | k + 1 =>
    match onGrid code (k + 1) with
    | some n => ⟨n, k + 1 - finest⟩
    | none => searchGrids code k

/-- The same number without zeros at the end of its digits. -/
def Scaled.trimmed (d : Scaled) : Scaled :=
  if _hzero : d.digits = 0 then ⟨0, 0⟩
  else if d.digits % 10 = 0 then Scaled.trimmed ⟨d.digits / 10, d.exponent + 1⟩
  else d
termination_by d.digits
decreasing_by exact Nat.div_lt_self (Nat.pos_of_ne_zero _hzero) (by decide)

/-- The decimal that stands for a finite code. -/
def shortest (code : Nat) : Scaled :=
  (searchGrids code ((Nat.toDigits 10 (stepsOf code)).length - 1)).trimmed

/-- How a decimal is laid out.  With `p` the place of the point, so that the number is
`0.d₁d₂… * 10 ^ p`, it is written plainly while `plainAbove < p ≤ plainUpTo` and otherwise with an
exponent of at least `exponentWidth` digits. -/
structure Layout where
  plainAbove : Int
  plainUpTo : Int
  exponentWidth : Nat

/-- A signed exponent, filled up with zeros to a least width. -/
def exponentChars (width : Nat) (e : Int) : List Char :=
  (if e < 0 then '-' else '+') :: (Nat.toDigits 10 e.natAbs).leftpad width '0'

/-- A decimal as a layout writes it.  A plain numeral always has a point. -/
def Layout.write (layout : Layout) (d : Scaled) : List Char :=
  let digits := Nat.toDigits 10 d.digits
  let p : Int := digits.length + d.exponent
  if d.digits = 0 then ['0', '.', '0']
  else if layout.plainAbove < p ∧ p ≤ layout.plainUpTo then
    if p ≤ 0 then '0' :: '.' :: (List.replicate (-p).toNat '0' ++ digits)
    else if digits.length ≤ p.toNat then
      digits ++ List.replicate (p.toNat - digits.length) '0' ++ ['.', '0']
    else digits.take p.toNat ++ '.' :: digits.drop p.toNat
  else
    digits.take 1 ++ (if digits.length = 1 then [] else '.' :: digits.drop 1) ++
      'e' :: exponentChars layout.exponentWidth (p - 1)

/-- A finite double as a layout writes it, with its sign. -/
def Layout.writeFloat (layout : Layout) (x : Float) : List Char :=
  (if Binary64.isSigned x then ['-'] else []) ++ layout.write (shortest (Binary64.code x))

end LineCalculator.Decimal
