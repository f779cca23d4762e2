import LineCalculator.Toml.Value

/-!
# Documents under construction

A document is built statement by statement.  A path of keys leads to a table, and on the way tables
are made where there are none; an array of tables leads to its last one.  Besides its entries a
document keeps three sets of paths: tables that have been declared and must not be declared again,
values that must not be extended, and tables made by dotted keys, which count as declared as soon as
the next heading is read.
-/

namespace LineCalculator.Toml

/-- A sequence of keys. -/
abbrev Path := List String

namespace Table

/-- The entries with another value for a key that they hold. -/
def replace (key : String) (value : Value) (entries : Table) : Table :=
  entries.map fun entry => if entry.1 = key then (key, value) else entry

/-- The entries with a new one at the end, unless the key is taken. -/
def add? (key : String) (value : Value) (entries : Table) : Option Table :=
  if (entries.lookup key).isSome then none else some (entries ++ [(key, value)])

/-- The entries with the table at a path changed.  Tables that are missing on the way are made; if
anything else stands in the way there is no result.  An array stands in the way unless
`throughArrays`, when its last item is meant. -/
def changeAt? (throughArrays : Bool) (change : Table → Option Table) : Path → Table → Option Table
  | [], entries => change entries
  | key :: path, entries =>
    match entries.lookup key with
    | none => do
      let inner ← changeAt? throughArrays change path []
      return entries ++ [(key, .table inner)]
    | some (.table inner) => do
      let inner ← changeAt? throughArrays change path inner
      return entries.replace key (.table inner)
    | some (.array items) =>
      match throughArrays, items.getLast? with
      | true, some (.table inner) => do
        let inner ← changeAt? throughArrays change path inner
        return entries.replace key (.array (items.dropLast ++ [.table inner]))
      | _, _ => none
    | some _ => none

/-- The entries with an empty table at the end of the array that a key stands for.  An array that is
missing is made. -/
def appendTable? (key : String) (entries : Table) : Option Table :=
  match entries.lookup key with
  | none => some (entries ++ [(key, .array [.table []])])
  | some (.array items) => some (entries.replace key (.array (items ++ [.table []])))
  | some _ => none

end Table

/-- A document and what may still be done with it. -/
structure Document where
  root : Table := []
  declared : List Path := []
  frozen : List Path := []
  dotted : List Path := []

namespace Document

/-- Whether a path leads to or into a value that must not be extended. -/
def isFrozen (doc : Document) (path : Path) : Bool :=
  doc.frozen.any fun closed => closed.isPrefixOf path

/-- Whether a path leads to a table that must not be declared again. -/
def isDeclared (doc : Document) (path : Path) : Bool :=
  doc.declared.contains path

/-- The document at a new heading, from which on tables made by dotted keys count as declared. -/
def atHeading (doc : Document) : Document :=
  { doc with declared := doc.dotted ++ doc.declared, dotted := [] }

/-- Declares the table at a path. -/
def declareTable? (path : Path) (doc : Document) : Option Document :=
  if doc.isDeclared path || doc.isFrozen path then none
  else do
    let root ← Table.changeAt? true some path doc.root
    return { doc with root, declared := path :: doc.declared }

/-- Adds a table to the array at a path.  What was known about earlier tables of the array no longer
applies. -/
def appendTable? (path : Path) (doc : Document) : Option Document :=
  match path.getLast? with
  | none => none
  | some key =>
    if doc.isFrozen path then none
    else do
      let root ← Table.changeAt? true (Table.appendTable? key) path.dropLast doc.root
      let isOutside (other : Path) : Bool := !path.isPrefixOf other
      return { doc with
        root
        declared := path :: doc.declared.filter isOutside
        frozen := doc.frozen.filter isOutside }

/-- The paths from a heading that lead through the tables of a dotted key. -/
def between (heading key : Path) : List Path :=
  (List.range (key.length - 1)).map fun n => heading ++ key.take (n + 1)

/-- Whether a value is closed to later statements. -/
def isClosed : Value → Bool
  | .array _ => true
  | .table _ => true
  | _ => false

/-- Sets a key below a heading to a value. -/
def set? (heading key : Path) (value : Value) (doc : Document) : Option Document :=
  match key.getLast? with
  | none => none
  | some last =>
    let passed := between heading key
    let parent := heading ++ key.dropLast
    if passed.any doc.isDeclared || doc.isFrozen parent then none
    else do
      let root ← Table.changeAt? true (Table.add? last value) parent doc.root
      let frozen := if isClosed value then (heading ++ key) :: doc.frozen else doc.frozen
      return { doc with root, frozen, dotted := passed ++ doc.dotted }

end Document

/-- An inline table under construction, with the paths of the values that must not be extended. -/
structure InlineTable where
  entries : Table := []
  frozen : List Path := []

/-- Sets a key of an inline table to a value. -/
def InlineTable.set? (key : Path) (value : Value) (t : InlineTable) : Option InlineTable :=
  match key.getLast? with
  | none => none
  | some last =>
    if t.frozen.any fun closed => closed.isPrefixOf key then none
    else do
      let entries ← Table.changeAt? false (Table.add? last value) key.dropLast t.entries
      return ⟨entries, if Document.isClosed value then key :: t.frozen else t.frozen⟩

end LineCalculator.Toml
