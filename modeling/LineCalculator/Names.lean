/-!
# The names of the language

A name stands for a constant or for a function of one number.  Names are matched exactly, so `Pi` is
unknown.  Functions follow binary64 throughout: an argument outside the domain gives not-a-number,
and the logarithm of zero is minus infinity.
-/

namespace LineCalculator

/-- The functions that an expression can call. -/
inductive Function where
  | sin
  | cos
  | tan
  | arcsin
  | arccos
  | arctan
  | ln
  | log
  | lb
  | placeholder
  deriving DecidableEq, Repr

/-- The value of a function. -/
def Function.apply : Function → Float → Float
  | sin, x => x.sin
  | cos, x => x.cos
  | tan, x => x.tan
  | arcsin, x => x.asin
  | arccos, x => x.acos
  | arctan, x => x.atan
  | ln, x => x.log
  | log, x => x.log10
  | lb, x => x.log2
  | placeholder, x => x

/-- What a name stands for, with a description. -/
inductive Entry where
  | constant (value : Float) (description : String)
  | function (fn : Function) (description : String)
  deriving DecidableEq, Repr

namespace Names

/-- The ratio of a circle's circumference to its diameter. -/
def pi : Float := 3.141592653589793

/-- The base of the natural logarithm. -/
def e : Float := 2.718281828459045

/-- All names in the order in which they are listed. -/
def table : List (String × Entry) :=
  [("pi", .constant pi "Ratio of a circle's circumference to its diameter"),
    ("e", .constant e "Euler's number"),
    ("sin", .function .sin "Sine (radians)"),
    ("cos", .function .cos "Cosine (radians)"),
    ("tan", .function .tan "Tangent (radians)"),
    ("arcsin", .function .arcsin "Inverse sine"),
    ("arccos", .function .arccos "Inverse cosine"),
    ("arctan", .function .arctan "Inverse tangent"),
    ("ln", .function .ln "Natural logarithm"),
    ("log", .function .log "Base-10 logarithm"),
    ("lb", .function .lb "Base-2 logarithm"),
    ("myfunchere", .function .placeholder "Placeholder, returns its argument")]

/-- What a name stands for. -/
def lookup (name : String) : Option Entry :=
  table.lookup name

/-- What is found under a name stands in the table with it. -/
theorem mem_table_of_lookup {name : String} {entry : Entry} (h : lookup name = some entry) :
    (name, entry) ∈ table := by
  obtain ⟨before, after, hsplit, -⟩ := List.lookup_eq_some_iff.mp h
  rw [hsplit]
  simp

end Names

end LineCalculator
