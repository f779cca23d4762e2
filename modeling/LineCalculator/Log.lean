/-!
# Log records

What happens is told in records of five severities, each on the channel of the part that tells it.
Who reads them chooses the least severity that is of interest.
-/

namespace LineCalculator

/-- How much a record matters. -/
inductive Severity where
  | debug
  | info
  | warning
  | error
  | critical
  deriving DecidableEq, Repr

namespace Severity

/-- All severities, the least one first. -/
def all : List Severity :=
  [debug, info, warning, error, critical]

/-- The name of a severity. -/
def label : Severity → String
  | debug => "DEBUG"
  | info => "INFO"
  | warning => "WARNING"
  | error => "ERROR"
  | critical => "CRITICAL"

/-- The place of a severity among all. -/
def rank : Severity → Nat
  | debug => 0
  | info => 1
  | warning => 2
  | error => 3
  | critical => 4

/-- The severity of a name. -/
def ofLabel? (name : String) : Option Severity :=
  all.find? fun severity => severity.label = name

/-- Every severity is found under its name. -/
@[simp] theorem ofLabel?_label (severity : Severity) :
    ofLabel? severity.label = some severity := by
  cases severity <;> decide

end Severity

/-- What was told, by whom, and how much it matters. -/
structure Record where
  severity : Severity
  channel : String
  message : String
  deriving DecidableEq, Repr

/-- Whether a record matters at least as much as a severity. -/
def Record.reaches (least : Severity) (record : Record) : Bool :=
  least.rank ≤ record.severity.rank

end LineCalculator
