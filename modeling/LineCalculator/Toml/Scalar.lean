import LineCalculator.Text.Integer
import LineCalculator.Toml.Value

/-!
# Dates, times and numbers of a settings file

Matchers take a scalar from the front of a text if one stands there.  They take as much as they can
and do not look at what follows.
-/

namespace LineCalculator.Toml

/-- Takes something from the front of a text if it is there. -/
abbrev Matcher := StateT (List Char) Option

namespace Matcher

/-- The next character. -/
def next : Matcher Char := do
  match ← get with
  | c :: cs => set cs; return c
  | [] => failure

/-- A character of a class. -/
def oneOf (p : Char → Bool) : Matcher Char := do
  let c ← next
  if p c then return c else failure

/-- The given character. -/
def char (c : Char) : Matcher Unit := do
  let _ ← oneOf (· = c)

/-- What a matcher finds, if anything. -/
def optionally {α : Type} (m : Matcher α) : Matcher (Option α) :=
  (some <$> m) <|> pure none

/-- The longest run of characters of a class. -/
def takeWhile (p : Char → Bool) : Matcher (List Char) :=
  modifyGet fun cs => cs.span p

/-- A number of exactly so many digits that lies between two bounds. -/
def field (width low high : Nat) : Matcher Nat := do
  let digits := (← get).take width
  modify (·.drop width)
  let n := Nat.ofDigitChars 10 digits 0
  if digits.length = width ∧ digits.all Char.isDigit ∧ low ≤ n ∧ n ≤ high then return n else failure

/-- A date, which the calendar need not have. -/
def date : Matcher Date := do
  let year ← field 4 0 9999
  char '-'
  let month ← field 2 1 12
  char '-'
  let day ← field 2 1 31
  return ⟨year, month, day⟩

/-- The microseconds of a fraction of a second, of which finer digits are dropped. -/
def microseconds : Matcher Nat := do
  char '.'
  let first ← oneOf Char.isDigit
  let digits := first :: (← takeWhile Char.isDigit)
  return Nat.ofDigitChars 10 ((digits ++ List.replicate 6 '0').take 6) 0

/-- A time of day. -/
def clock : Matcher Clock := do
  let hour ← field 2 0 23
  char ':'
  let minute ← field 2 0 59
  char ':'
  let second ← field 2 0 59
  let microsecond ← optionally microseconds
  return ⟨hour, minute, second, microsecond.getD 0⟩

/-- Hours and minutes, in minutes. -/
def minutes : Matcher Nat := do
  let hour ← field 2 0 23
  char ':'
  let minute ← field 2 0 59
  return 60 * hour + minute

/-- An offset from universal time in minutes. -/
def offset : Matcher Int := do
  match ← oneOf fun c => c = 'Z' || c = 'z' || c = '+' || c = '-' with
  | '+' => return (← minutes : Nat)
  | '-' => return -(← minutes : Nat)
  | _ => return 0

/-- A time of day after a date, with an offset if there is one. -/
def clockOfDate : Matcher (Clock × Option Int) := do
  let _ ← oneOf fun c => c = 'T' || c = 't' || c = ' '
  let time ← clock
  return (time, ← optionally offset)

/-- A date, and the time of day after it if there is one. -/
def moment : Matcher (Date × Option (Clock × Option Int)) := do
  let day ← date
  return (day, ← optionally clockOfDate)

/-- A run of digits, between which single underscores may stand. -/
def digitRun (isDigit : Char → Bool) : List Char → List Char × List Char
  | '_' :: c :: cs =>
    if isDigit c then (c :: (digitRun isDigit cs).1, (digitRun isDigit cs).2)
    else ([], '_' :: c :: cs)
  | c :: cs =>
    if isDigit c then (c :: (digitRun isDigit cs).1, (digitRun isDigit cs).2) else ([], c :: cs)
  | [] => ([], [])

/-- A run of digits that starts with one. -/
def digits (isDigit : Char → Bool) : Matcher (List Char) := do
  let first ← oneOf isDigit
  let others ← modifyGet (digitRun isDigit)
  return first :: others

end Matcher

/-- The value of a hexadecimal digit. -/
def hexValue (c : Char) : Nat :=
  if c.isDigit then c.toNat - 48
  else if 'a' ≤ c then c.toNat - 87
  else c.toNat - 55

/-- Whether a character is a hexadecimal digit. -/
def isHexDigit (c : Char) : Bool :=
  c.isDigit || ('a' ≤ c && c ≤ 'f') || ('A' ≤ c && c ≤ 'F')

/-- The number that digits stand for in a base. -/
def ofDigits (base : Nat) (digits : List Char) : Nat :=
  digits.foldl (fun n c => base * n + hexValue c) 0

/-- A number as it is written: in a base, or in decimal digits with a point or an exponent. -/
inductive Numeral where
  | based (base : Nat) (digits : List Char)
  | whole (isNegative : Bool) (digits : List Char)
  | decimal (isNegative : Bool) (value : Decimal.Scaled)
  deriving DecidableEq, Repr

namespace Matcher

/-- An integer in base two, eight or sixteen. -/
def based : Matcher Numeral := do
  char '0'
  match ← next with
  | 'x' => return .based 16 (← digits isHexDigit)
  | 'b' => return .based 2 (← digits fun c => c = '0' || c = '1')
  | 'o' => return .based 8 (← digits fun c => '0' ≤ c && c ≤ '7')
  | _ => failure

/-- A sign, which says whether the number is negative. -/
def sign : Matcher Bool := do
  let c ← optionally (oneOf fun c => c = '+' || c = '-')
  return c = some '-'

/-- Decimal digits without a leading zero. -/
def wholeDigits : Matcher (List Char) := do
  match ← optionally (char '0') with
  | some _ => return ['0']
  | none => digits Char.isDigit

/-- The digits after a point. -/
def fraction : Matcher (List Char) := do
  char '.'
  digits Char.isDigit

/-- An exponent of ten. -/
def exponent : Matcher Int := do
  let _ ← oneOf fun c => c = 'e' || c = 'E'
  let isNegative ← sign
  let n : Int := Nat.ofDigitChars 10 (← digits Char.isDigit) 0
  return if isNegative then -n else n

/-- A number in decimal digits. -/
def decimal : Matcher Numeral := do
  let isNegative ← sign
  let whole ← wholeDigits
  match ← optionally fraction, ← optionally exponent with
  | none, none => return .whole isNegative whole
  | places, power =>
    let places := places.getD []
    return .decimal isNegative
      ⟨Nat.ofDigitChars 10 (whole ++ places) 0, power.getD 0 - places.length⟩

/-- A number that is written in digits. -/
def numeral : Matcher Numeral :=
  based <|> decimal

/-- A number that is written as a word. -/
def numberWord : Matcher Float := do
  let isNegative ← sign
  match ← next, ← next, ← next with
  | 'i', 'n', 'f' =>
    let infinity := Binary64.ofCode Binary64.infinity
    return if isNegative then -infinity else infinity
  | 'n', 'a', 'n' => return 0 / 0
  | _, _, _ => failure

end Matcher

/-- The value of a number, unless it is an integer with too many digits. -/
def Numeral.value? : Numeral → Option Value
  | based base digits => some (.integer (ofDigits base digits))
  | whole isNegative digits =>
    let n : Int := Nat.ofDigitChars 10 digits 0
    if Text.mostDigits < digits.length then none else some (.integer (if isNegative then -n else n))
  | decimal isNegative d => some (.real (if isNegative then -d.toFloat else d.toFloat))

end LineCalculator.Toml
