/-!
# Dates and times of day

Dates of the Gregorian calendar from year 1 on, times of day with microseconds, and pairs of both
that may carry an offset from universal time in minutes.  Each is shown in two ways: as it is
commonly written, and spelled out as the construction that makes it.
-/

namespace LineCalculator.Toml

/-- A date of the calendar. -/
structure Date where
  year : Nat
  month : Nat
  day : Nat
  deriving DecidableEq, Repr

/-- A time of day. -/
structure Clock where
  hour : Nat
  minute : Nat
  second : Nat
  microsecond : Nat
  deriving DecidableEq, Repr

/-- A date with a time of day and perhaps the minutes that its clock is ahead of universal time. -/
structure Moment where
  date : Date
  clock : Clock
  offset : Option Int
  deriving DecidableEq, Repr

/-- A number filled up with zeros to a least width. -/
def filled (width n : Nat) : String :=
  String.ofList ((Nat.toDigits 10 n).leftpad width '0')

/-- Whether a year has a leap day. -/
def isLeapYear (year : Nat) : Bool :=
  year % 4 = 0 && (year % 100 ≠ 0 || year % 400 = 0)

/-- The number of days of a month. -/
def daysOfMonth (year month : Nat) : Nat :=
  if month = 2 then (if isLeapYear year then 29 else 28)
  else if month = 4 ∨ month = 6 ∨ month = 9 ∨ month = 11 then 30
  else 31

/-- Whether the calendar has a date. -/
def Date.isValid (d : Date) : Bool :=
  1 ≤ d.year && 1 ≤ d.day && d.day ≤ daysOfMonth d.year d.month

/-- The date as it is commonly written. -/
def Date.text (d : Date) : String :=
  filled 4 d.year ++ "-" ++ filled 2 d.month ++ "-" ++ filled 2 d.day

/-- The time as it is commonly written.  Microseconds are left out when there are none. -/
def Clock.text (t : Clock) : String :=
  let whole := filled 2 t.hour ++ ":" ++ filled 2 t.minute ++ ":" ++ filled 2 t.second
  if t.microsecond = 0 then whole else whole ++ "." ++ filled 6 t.microsecond

/-- An offset as it is commonly written. -/
def offsetText (minutes : Int) : String :=
  let sign := if minutes < 0 then "-" else "+"
  sign ++ filled 2 (minutes.natAbs / 60) ++ ":" ++ filled 2 (minutes.natAbs % 60)

/-- The moment as it is commonly written. -/
def Moment.text (m : Moment) : String :=
  m.date.text ++ " " ++ m.clock.text ++ (m.offset.map offsetText).getD ""

/-- The numbers of a date. -/
def Date.fields (d : Date) : List String :=
  [toString d.year, toString d.month, toString d.day]

/-- The numbers of a time.  Microseconds, and then seconds, are left out when there are none. -/
def Clock.fields (t : Clock) : List String :=
  let coarse := [toString t.hour, toString t.minute]
  if t.microsecond ≠ 0 then coarse ++ [toString t.second, toString t.microsecond]
  else if t.second ≠ 0 then coarse ++ [toString t.second]
  else coarse

/-- A construction with its arguments. -/
def construction (maker : String) (arguments : List String) : String :=
  maker ++ "(" ++ ", ".intercalate arguments ++ ")"

/-- The construction of a date. -/
def Date.spelled (d : Date) : String :=
  construction "datetime.date" d.fields

/-- The construction of a time. -/
def Clock.spelled (t : Clock) : String :=
  construction "datetime.time" t.fields

/-- The construction of an offset.  A negative one counts back from a day before. -/
def offsetSpelled (minutes : Int) : String :=
  let seconds (n : Int) := "seconds=" ++ toString (60 * n)
  if minutes = 0 then "datetime.timezone.utc"
  else
    let delta := if minutes < 0 then ["days=-1", seconds (1440 + minutes)] else [seconds minutes]
    construction "datetime.timezone" [construction "datetime.timedelta" delta]

/-- The construction of a moment. -/
def Moment.spelled (m : Moment) : String :=
  let zone := (m.offset.map fun minutes => "tzinfo=" ++ offsetSpelled minutes).toList
  construction "datetime.datetime" (m.date.fields ++ m.clock.fields ++ zone)

end LineCalculator.Toml
