/-!
# Limits

The machine under the program bounds how deep it can go: calls within calls, trees within trees and
values within values.  No such bound belongs to the language, and it depends on what the machine is
already busy with, so what is said of the program is said for all of them.
-/

namespace LineCalculator

/-- How deep the program can go. -/
class Limits where
  /-- The calls that can be open at once while an expression is read. -/
  readingFrames : Nat
  /-- There is room for the beginning of an expression. -/
  sixteen_le_readingFrames : 16 ≤ readingFrames
  /-- The most levels of a tree that has a value. -/
  valueLevels : Nat
  /-- The most levels of a tree that has a written form. -/
  textLevels : Nat
  /-- The most levels of a tree that has a form in JSON. -/
  jsonLevels : Nat
  /-- The budget of depth for a value in a file of settings. -/
  fileDepth : Nat
  /-- The most arrays and tables inside one another that can be shown. -/
  shownLevels : Nat

/-- The limits of a machine with a thousand frames that does little else. -/
instance Limits.usual : Limits where
  readingFrames := 992
  sixteen_le_readingFrames := by decide
  valueLevels := 497
  textLevels := 330
  jsonLevels := 254
  fileDepth := 980
  shownLevels := 984

end LineCalculator
