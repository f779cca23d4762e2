/-!
# Diagnostics

A diagnostic is a message that may say where in a source it applies.  Columns are counted from one,
positions from zero.  When the source is known it is shown with a mark under the position.
-/

namespace LineCalculator

/-- A position, with the source it is a position in when that is known. -/
structure Place where
  position : Int
  source : Option (List Char) := none
  deriving DecidableEq, Repr

/-- A message and the place it is about. -/
structure Diagnostic where
  message : String
  place : Option Place := none
  deriving DecidableEq, Repr

namespace Place

/-- What stands in front of a source that is shown. -/
def margin : List Char :=
  [' ', ' ', ' ', ' ', '|', ' ']

/-- The source and, on a line of its own, a mark under the position. -/
def snippet (place : Place) : String :=
  match place.source with
  | none => ""
  | some source =>
    String.ofList
      (margin ++ source ++
        '\n' :: (List.replicate (margin.length + place.position).toNat ' ' ++ ['^']))

/-- The column, and the snippet if there is a source. -/
def text (place : Place) : String :=
  let column := "column " ++ toString (place.position + 1)
  if place.source.isSome then column ++ "\n" ++ place.snippet else column

end Place

namespace Diagnostic

/-- A message about a position of a source, or about no position at all. -/
def about (message : String) (source : List Char) (position : Option Int) : Diagnostic :=
  ⟨message, position.map fun p => ⟨p, some source⟩⟩

/-- The place, if there is one, and the message below it. -/
def text (d : Diagnostic) : String :=
  match d.place with
  | none => d.message
  | some place => place.text ++ "\n" ++ d.message

/-- Whether there is a place whose source is missing. -/
def lacksSource (d : Diagnostic) : Bool :=
  d.place.any fun place => place.source.isNone

/-- Fills in the source of a place that lacks it. -/
def withSource (source : List Char) (d : Diagnostic) : Diagnostic :=
  if d.lacksSource then
    { d with place := d.place.map fun place => ⟨place.position, some source⟩ }
  else d

end Diagnostic

end LineCalculator
