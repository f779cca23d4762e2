import LineCalculator.Proofs.Number.Numeral

/-!
# Numbers as expressions show them

Of the doubles that have a code, zero and those from `0.0001` up to below `10 ^ 16` are written
plainly and read back, the other finite ones are written with an exponent, and infinity by its name.
The bounds are themselves the doubles nearest to decimals, and rounding to the nearest is monotone,
so that a double lies within the bounds exactly when the decimal that stands for it does.
-/

namespace LineCalculator

open Binary64 Decimal

/-- The numbers that are written without an exponent. -/
def IsPlainNumber (x : Float) : Prop :=
  x = 0 ∨ (0.0001 ≤ x ∧ x < 10000000000000000)

/-- A number that is shown with an exponent. -/
def HasExponent (x : Float) : Prop :=
  'e' ∈ numberChars x

/-- The code of the least positive number that is written plainly. -/
def plainFrom : Nat := 0x3F1A36E2EB1C432D

/-- The code of the least number above those that are written plainly. -/
def plainBelow : Nat := 0x4341C37937E08000

variable {code : Nat}

theorem digits_shortest_eq_zero_iff (hcode : code < infinity) :
    (shortest code).digits = 0 ↔ code = 0 := by
  constructor
  · intro h
    rw [← code_shortest hcode, Scaled.code_of_digits_eq_zero h]
    decide +kernel
  · rintro rfl
    decide +kernel

/-- The point of the decimal that stands for a code stands behind a place exactly when the code is
not below that of the power of ten at the place, if this holds of the power of ten itself. -/
theorem lt_place_shortest_iff {m n bound : Nat} (hbound : nearest (10 ^ m) (10 ^ n) = bound)
    (hexact : (m : Int) - n < (shortest bound).place) (hcode : code < infinity) (hne : code ≠ 0) :
    (m : Int) - n < (shortest code).place ↔ bound ≤ code := by
  have hdigits : (shortest code).digits ≠ 0 := fun h =>
    hne ((digits_shortest_eq_zero_iff hcode).mp h)
  have hplace := lt_place_iff hdigits m n
  have hread : nearest (shortest code).num (shortest code).den = code := code_shortest hcode
  have hden := (shortest code).den_pos
  have hpow : 0 < 10 ^ n := Nat.pow_pos (by decide)
  constructor
  · intro h
    rw [← hread, ← hbound]
    exact nearest_le_nearest hpow hden (hplace.mp h)
  · intro h
    by_cases hle : 10 ^ m * (shortest code).den ≤ (shortest code).num * 10 ^ n
    · exact hplace.mpr hle
    · have hupper := nearest_le_nearest hden hpow (Nat.le_of_lt (Nat.not_le.mp hle))
      rw [hread, hbound] at hupper
      rw [Nat.le_antisymm hupper h]
      exact hexact

theorem isPlain_shortest_iff (hcode : code < infinity) :
    numberLayout.IsPlain (shortest code) ↔
      code = 0 ∨ (plainFrom ≤ code ∧ code < plainBelow) := by
  rw [Layout.IsPlain, digits_shortest_eq_zero_iff hcode]
  by_cases hne : code = 0
  · simp [hne]
  have hfrom : -4 < (shortest code).place ↔ plainFrom ≤ code :=
    lt_place_shortest_iff (m := 0) (n := 4) (by decide +kernel) (by decide +kernel) hcode hne
  have hbelow : 16 < (shortest code).place ↔ plainBelow ≤ code :=
    lt_place_shortest_iff (m := 16) (n := 0) (by decide +kernel) (by decide +kernel) hcode hne
  refine or_congr_right (and_congr hfrom ?_)
  exact Int.not_lt.symm.trans ((not_congr hbelow).trans Nat.not_le)

/-! ## Doubles of codes -/

theorem ofCode_inj {code' : Nat} (h : code ≤ infinity) (h' : code' ≤ infinity)
    (heq : ofCode code = ofCode code') : code = code' := by
  rw [← code_ofCode h, heq, code_ofCode h']

theorem ofCode_eq_zero_iff (h : code ≤ infinity) : ofCode code = 0 ↔ code = 0 := by
  have hzero : (0 : Float) = ofCode 0 := by decide +kernel
  rw [hzero]
  exact ⟨ofCode_inj h (Nat.zero_le _), fun heq => by rw [heq]⟩

theorem le_ofCode_iff (h : code ≤ infinity) : 0.0001 ≤ ofCode code ↔ plainFrom ≤ code := by
  have hfrom : (0.0001 : Float) = ofCode plainFrom := by decide +kernel
  have hfrom' : plainFrom ≤ infinity := by decide
  rw [hfrom]
  exact ofCode_le_iff hfrom' h

theorem ofCode_lt_bound_iff (h : code ≤ infinity) :
    ofCode code < 10000000000000000 ↔ code < plainBelow := by
  have hbelow : (10000000000000000 : Float) = ofCode plainBelow := by decide +kernel
  have hbelow' : plainBelow ≤ infinity := by decide
  rw [hbelow]
  exact ofCode_lt_iff h hbelow'

theorem isPlainNumber_ofCode_iff (h : code ≤ infinity) :
    IsPlainNumber (ofCode code) ↔ code = 0 ∨ (plainFrom ≤ code ∧ code < plainBelow) :=
  or_congr (ofCode_eq_zero_iff h) (and_congr (le_ofCode_iff h) (ofCode_lt_bound_iff h))

theorem ne_infinity_of_isPlainNumber (h : code ≤ infinity) (hplain : IsPlainNumber (ofCode code)) :
    code ≠ infinity := by
  have hrange := (isPlainNumber_ofCode_iff h).mp hplain
  have hbelow : plainBelow < infinity := by decide
  have hpos : 0 < infinity := by decide
  omega

theorem append_of_unsigned {signed : Bool} (h : signed = false) (text : List Char) :
    (if signed then ['-'] else []) ++ text = text := by
  rw [h]
  rfl

theorem writeFloat_ofCode (layout : Layout) (h : code ≤ infinity) :
    layout.writeFloat (ofCode code) = layout.write (shortest code) := by
  rw [Layout.writeFloat, code_ofCode h]
  exact append_of_unsigned (isSigned_ofCode h) _

theorem numberChars_ofCode (hcode : code < infinity) :
    numberChars (ofCode code) = numberLayout.write (shortest code) := by
  have h := Nat.le_of_lt hcode
  have hinf : (ofCode code).isInf = false := by
    rw [isInf_ofCode h]
    exact decide_eq_false (Nat.ne_of_lt hcode)
  have hfinite : numberChars (ofCode code) = numberLayout.writeFloat (ofCode code) := by
    simp only [numberChars, isNaN_ofCode h, hinf, Bool.false_eq_true, if_false]
  rw [hfinite, writeFloat_ofCode numberLayout h]

theorem numberChars_infinity : numberChars (ofCode infinity) = ['i', 'n', 'f'] := by
  decide +kernel

/-- A number that is written plainly is written as a lexeme that reads back to it. -/
theorem numberChars_of_isPlainNumber (h : code ≤ infinity) (hplain : IsPlainNumber (ofCode code)) :
    IsLexeme .number (numberChars (ofCode code)) ∧
      Decimal.read (numberChars (ofCode code)) = ofCode code := by
  have hrange := (isPlainNumber_ofCode_iff h).mp hplain
  have hcode : code < infinity := Nat.lt_of_le_of_ne h (ne_infinity_of_isPlainNumber h hplain)
  obtain ⟨whole, fraction, hwrite, hnumeral, hvalue⟩ :=
    writesPlain_of_isPlain ((isPlain_shortest_iff hcode).mpr hrange)
  rw [numberChars_ofCode hcode, hwrite]
  refine ⟨hnumeral.isLexeme, ?_⟩
  rw [hnumeral.read_of_hasValue hvalue, code_shortest hcode]

/-- A finite number that is not written plainly is spoiled as a numeral by its exponent. -/
theorem writesExponent_numberChars (hcode : code < infinity)
    (hplain : ¬ IsPlainNumber (ofCode code)) : WritesExponent (numberChars (ofCode code)) := by
  have hrange := isPlainNumber_ofCode_iff (Nat.le_of_lt hcode)
  rw [numberChars_ofCode hcode]
  refine writesExponent_of_not_isPlain fun h => ?_
  exact hplain (hrange.mpr ((isPlain_shortest_iff hcode).mp h))

theorem hasExponent_ofCode_iff (h : code ≤ infinity) :
    HasExponent (ofCode code) ↔ ¬ IsPlainNumber (ofCode code) ∧ code ≠ infinity := by
  constructor
  · intro hmem
    constructor
    · intro hplain
      have hlexeme := (numberChars_of_isPlainNumber h hplain).1
      exact absurd (hlexeme.isDigit_or_of_number 'e' hmem) (by decide)
    · rintro rfl
      rw [HasExponent, numberChars_infinity] at hmem
      exact absurd hmem (by decide)
  · rintro ⟨hplain, hne⟩
    obtain ⟨head, tail, htext, -⟩ :=
      writesExponent_numberChars (Nat.lt_of_le_of_ne h hne) hplain
    rw [HasExponent, htext]
    simp

end LineCalculator
