/-!
# Slices of a text

A slice is given by two positions.  A negative position counts from the end of the text, positions
beyond an end stand for that end, and a slice that would run backwards is empty.
-/

namespace LineCalculator.Text

/-- The offset that a position stands for in a text of the given length. -/
def offset (length : Nat) (position : Int) : Nat :=
  if position < 0 then (length + position).toNat else position.toNat

/-- The characters from the first position up to the second. -/
def slice (cs : List Char) (start stop : Int) : List Char :=
  (cs.take (offset cs.length stop)).drop (offset cs.length start)

/-- Between natural positions a slice is what lies between them. -/
theorem slice_ofNat (cs : List Char) (start stop : Nat) :
    slice cs start stop = (cs.take stop).drop start := by
  have hstart : ¬ (start : Int) < 0 := by omega
  have hstop : ¬ (stop : Int) < 0 := by omega
  simp [slice, offset, hstart, hstop]

end LineCalculator.Text
