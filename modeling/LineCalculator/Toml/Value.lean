import LineCalculator.Expr.Text
import LineCalculator.Text.Integer
import LineCalculator.Text.Quoted
import LineCalculator.Toml.Moment

/-!
# Values of a settings file

A value is shown in two ways.  The text of a value is what stands for it where a text is wanted; its
spelling is how a message or an enclosing array shows it, with texts in quotes.  The limit to the
digits of an integer holds here too: a longer one, which only a base other than ten can give, is not
shown.  Neither is a value with others inside it for too many levels, such as a key with very many
parts makes.
-/

namespace LineCalculator.Toml

/-- A value.  The entries of a table are in the order in which they were made. -/
inductive Value where
  | text (s : String)
  | boolean (b : Bool)
  | integer (n : Int)
  | real (x : Float)
  | date (d : Date)
  | clock (t : Clock)
  | moment (m : Moment)
  | array (items : List Value)
  | table (entries : List (String × Value))

/-- Why a value is not shown. -/
inductive Obstacle where
  | tooManyDigits
  | tooDeep
  deriving DecidableEq, Repr

/-- The entries of a table, in the order in which they were made. -/
abbrev Table := List (String × Value)

namespace Value

mutual

/-- A value as messages show it. -/
def spelled : Value → String
  | text s => Text.quoted s
  | boolean b => if b then "True" else "False"
  | integer n => toString n
  | real x => numberText x
  | date d => d.spelled
  | clock t => t.spelled
  | moment m => m.spelled
  | array items => "[" ++ ", ".intercalate (spelledItems items) ++ "]"
  | table entries => "\x7b" ++ ", ".intercalate (spelledEntries entries) ++ "\x7d"

/-- The items of an array as messages show them. -/
def spelledItems : List Value → List String
  | [] => []
  | item :: items => item.spelled :: spelledItems items

/-- The entries of a table as messages show them. -/
def spelledEntries : List (String × Value) → List String
  | [] => []
  | (key, value) :: entries =>
    (Text.quoted key ++ ": " ++ value.spelled) :: spelledEntries entries

end

mutual

/-- What keeps a value from being shown, if anything: the first integer with too many digits, or the
first array or table below too many others, whichever comes first. -/
def obstacle? : Nat → Value → Option Obstacle
  | _, integer n =>
    if Text.mostDigits < (Nat.toDigits 10 n.natAbs).length then some .tooManyDigits else none
  | 0, array _ => some .tooDeep
  | levels + 1, array items => itemsObstacle? levels items
  | 0, table _ => some .tooDeep
  | levels + 1, table entries => entriesObstacle? levels entries
  | _, _ => none

/-- What keeps some items from being shown. -/
def itemsObstacle? (levels : Nat) : List Value → Option Obstacle
  | [] => none
  | item :: items => (item.obstacle? levels).or (itemsObstacle? levels items)

/-- What keeps some entries from being shown. -/
def entriesObstacle? (levels : Nat) : List (String × Value) → Option Obstacle
  | [] => none
  | (_, value) :: entries => (value.obstacle? levels).or (entriesObstacle? levels entries)

end

/-- A value where a text is wanted. -/
def toText : Value → String
  | text s => s
  | date d => d.text
  | clock t => t.text
  | moment m => m.text
  | value => value.spelled

end Value

end LineCalculator.Toml
