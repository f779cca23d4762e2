import LineCalculator.Text.Ranges

/-!
# Blank characters

Settings are written by hand, so the blanks around their values do not count.  Two sets of blanks
occur: the white space of Unicode around a number, and the same with the four information
separators around a word.
-/

namespace LineCalculator.Text

/-- The white space of Unicode. -/
def blankRanges : List (Nat × Nat) :=
  [(0x09, 0x0D), (0x20, 0x20), (0x85, 0x85), (0xA0, 0xA0), (0x1680, 0x1680), (0x2000, 0x200A),
    (0x2028, 0x2029), (0x202F, 0x202F), (0x205F, 0x205F), (0x3000, 0x3000)]

/-- Whether a character is white space. -/
def isBlank (c : Char) : Bool :=
  inRanges blankRanges c.toNat

/-- Every character that the core library takes for white space is blank. -/
theorem isBlank_of_isWhitespace {c : Char} (h : c.isWhitespace = true) : isBlank c = true := by
  simp only [Char.isWhitespace, Bool.or_eq_true, decide_eq_true_eq] at h
  rcases h with ((h | h) | h) | h <;> subst h <;> decide

/-- Whether a character may surround a word: white space or an information separator. -/
def isMargin (c : Char) : Bool :=
  isBlank c || (0x1C ≤ c.toNat && c.toNat ≤ 0x1F)

/-- The characters left when those of a class are taken off both ends. -/
def trimBy (drops : Char → Bool) (cs : List Char) : List Char :=
  ((cs.dropWhile drops).reverse.dropWhile drops).reverse

/-- The word without the blanks around it. -/
def trim (s : String) : String :=
  String.ofList (trimBy isMargin s.toList)

end LineCalculator.Text
