/-!
# Lines

A text comes with line ends of three kinds, which are all read as line feeds.
-/

namespace LineCalculator.Text

/-- A text with a line feed for every line end. -/
def plainLines : List Char → List Char
  | '\r' :: '\n' :: cs => '\n' :: plainLines cs
  | '\r' :: cs => '\n' :: plainLines cs
  | c :: cs => c :: plainLines cs
  | [] => []

/-- The lines of a text, each with the line feed that ends it; the last one may have none. -/
def lines : List Char → List (List Char)
  | [] => []
  | '\n' :: cs => ['\n'] :: lines cs
  | c :: cs =>
    match lines cs with
    | [] => [[c]]
    | line :: others => (c :: line) :: others

/-- The lines together are the text. -/
@[simp] theorem flatten_lines (cs : List Char) : (lines cs).flatten = cs := by
  induction cs using lines.induct with
  | case1 => rfl
  | case2 cs ih => simp [lines, ih]
  | case3 c cs hc hnil ih =>
    simp only [hnil, List.flatten_nil] at ih
    simp [lines, ← ih]
  | case4 c cs hc line others hcons ih =>
    simp only [hcons, List.flatten_cons] at ih
    simp [lines, hcons, ih]

/-- No line is empty. -/
theorem ne_nil_of_mem_lines {cs line : List Char} (h : line ∈ lines cs) : line ≠ [] := by
  induction cs using lines.induct generalizing line with
  | case1 => simp [lines] at h
  | case2 cs ih =>
    rcases List.mem_cons.mp h with rfl | hmem
    · simp
    · exact ih hmem
  | case3 c cs hc hnil =>
    simp only [lines, hnil, List.mem_singleton] at h
    simp [h]
  | case4 c cs hc first others hcons ih =>
    simp only [lines, hcons, List.mem_cons] at h
    rcases h with rfl | hmem
    · simp
    · exact ih (by simp [hcons, hmem])

end LineCalculator.Text
