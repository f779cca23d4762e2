import LineCalculator.FixedPoint
import LineCalculator.Proofs.Number.Denotation

/-!
# Results with a fixed number of places

A finite number is printed as the multiple of a power of ten that its exact value rounds to.  The
digits of the multiple are filled up with zeros to one more than the number of places, so a digit
always stands in front of the point, and a zero stands there only if no other digit does.  Only for
numbers of places near the largest one, which leave no room to count the digits before the point, is
this not so.
-/

namespace LineCalculator.Decimal

open Binary64

/-! ## Digits -/

/-- A number is not written with a zero in front. -/
theorem head?_toDigits_ne_zero {n : Nat} (hn : n ≠ 0) :
    (Nat.toDigits 10 n).head? ≠ some '0' := by
  induction n using Nat.strongRecOn with
  | ind n ih =>
      by_cases hsmall : n < 10
      · rw [Nat.toDigits_of_lt_base hsmall, List.head?_cons, ne_eq, Option.some_inj,
          Nat.digitChar_eq_zero]
        exact hn
      · rw [Nat.toDigits_of_base_le (by decide) (Nat.not_lt.mp hsmall),
          List.head?_append_of_ne_nil _ Nat.toDigits_ne_nil]
        exact ih (n / 10) (by omega) (by omega)

/-- The digits of a number, filled up with zeros so that one is left in front of the places. -/
def placedDigits (places n : Nat) : List Char :=
  (Nat.toDigits 10 n).leftpad (places + 1) '0'

variable {places n : Nat}

theorem length_placedDigits (places n : Nat) :
    (placedDigits places n).length = max (places + 1) (Nat.toDigits 10 n).length :=
  List.length_leftpad

theorem isDigit_of_mem_placedDigits {c : Char} (h : c ∈ placedDigits places n) :
    c.isDigit = true :=
  isDigit_of_mem_leftpad h

theorem ofDigitChars_placedDigits (places n : Nat) :
    Nat.ofDigitChars 10 (placedDigits places n) 0 = n :=
  ofDigitChars_leftpad _ n

/-- Digits that start with a zero have been filled up, or are those of zero. -/
theorem length_placedDigits_of_head? (h : (placedDigits places n).head? = some '0') :
    (placedDigits places n).length = places + 1 := by
  rw [length_placedDigits]
  refine Nat.max_eq_left (Nat.not_lt.mp fun hlong => ?_)
  have hnone : placedDigits places n = Nat.toDigits 10 n := by
    rw [placedDigits, List.leftpad, Nat.sub_eq_zero_of_le (Nat.le_of_lt hlong), List.replicate_zero,
      List.nil_append]
  rw [hnone] at h
  by_cases hn : n = 0
  · subst hn
    rw [Nat.toDigits_zero, List.length_singleton] at hlong
    omega
  · exact head?_toDigits_ne_zero hn h

/-! ## Numerals with a fixed number of places -/

/-- Digits in front of a point, without a zero that could be left out, and a fixed number of digits
behind it. -/
structure IsFixedNumeral (places : Nat) (whole fraction : List Char) : Prop where
  whole_ne_nil : whole ≠ []
  whole_digits : ∀ c ∈ whole, c.isDigit = true
  whole_eq_zero : whole.head? = some '0' → whole = ['0']
  fraction_digits : ∀ c ∈ fraction, c.isDigit = true
  length_fraction : fraction.length = places

theorem exists_fixedChars_eq (places n : Nat) : ∃ whole fraction,
    fixedChars places n = whole ++ (if places = 0 then [] else '.' :: fraction) ∧
      IsFixedNumeral places whole fraction ∧ numeralValue whole fraction = n / 10 ^ places := by
  have hlength := length_placedDigits places n
  have hlt : places < (placedDigits places n).length := by omega
  refine ⟨(placedDigits places n).take ((placedDigits places n).length - places),
    (placedDigits places n).drop ((placedDigits places n).length - places), rfl, ?_, ?_⟩
  · refine ⟨?_, fun c hc => isDigit_of_mem_placedDigits (List.mem_of_mem_take hc), ?_,
      fun c hc => isDigit_of_mem_placedDigits (List.mem_of_mem_drop hc), ?_⟩
    · rw [← List.length_pos_iff, List.length_take]
      omega
    · intro hhead
      rw [List.head?_take, if_neg (by omega)] at hhead
      obtain ⟨rest, hrest⟩ := List.head?_eq_some_iff.mp hhead
      rw [length_placedDigits_of_head? hhead, Nat.add_sub_cancel_left, hrest]
      rfl
    · rw [List.length_drop]
      omega
  · rw [numeralValue_eq, List.take_append_drop, ofDigitChars_placedDigits, List.length_drop,
      Nat.sub_sub_self (Nat.le_of_lt hlt), Nat.cast_pow, Nat.cast_ofNat]

end LineCalculator.Decimal

namespace LineCalculator

open Binary64 Decimal

variable {x : Float} {places : Int}

/-! ## Printing -/

/-- The whole part of a finite number has at most 309 digits. -/
theorem length_toDigits_wholeOf (hfinite : x.isFinite = true) :
    (Nat.toDigits 10 (wholeOf x)).length ≤ 309 := by
  have hlt : units (code x) < units infinity := units_lt_units (isFinite_iff.mp hfinite)
  have hinf : units infinity ≤ unitsPerOne * 10 ^ 309 := by decide +kernel
  rw [Nat.length_toDigits_le_iff (by decide) (by decide)]
  exact Nat.div_lt_of_lt_mul (Nat.lt_of_lt_of_le hlt hinf)

/-- Digits are counted rightly where there is room for those of any number. -/
theorem isMiscounted_eq_false (hfinite : x.isFinite = true) (hroom : places + 310 < 2 ^ 31) :
    isMiscounted places x = false := by
  have hlength := length_toDigits_wholeOf hfinite
  have hcount : ¬ mostPlaces < places + (Nat.toDigits 10 (wholeOf x)).length := by
    rw [mostPlaces]
    omega
  simp [isMiscounted, hcount]

theorem fixedPoint_eq_ok (hfinite : x.isFinite = true) (hplaces : 0 ≤ places)
    (hroom : places + 310 < 2 ^ 31) :
    fixedPoint places x = .ok (String.ofList (fixed places.toNat x)) := by
  obtain ⟨hnan, hinf⟩ := isNaN_and_isInf_of_isFinite hfinite
  have hmost : ¬ mostPlaces < places := by
    rw [mostPlaces]
    omega
  rw [fixedPoint, hnan, hinf, if_neg Bool.false_ne_true, if_neg Bool.false_ne_true,
    if_neg (Int.not_lt.mpr hplaces), if_neg hmost, isMiscounted_eq_false hfinite hroom,
    if_neg Bool.false_ne_true]

/-- The number of steps of the last place that a code is printed as. -/
def roundedSteps (places code : Nat) : Nat :=
  roundHalfEven (units code * 10 ^ places) unitsPerOne

theorem isNearestMultiple_roundedSteps (places code : Nat) :
    IsNearestMultiple (1 / 10 ^ places) (codeValue code) (roundedSteps places code) := by
  have hstep : (0 : ℚ) < 1 / 10 ^ places := by positivity
  refine IsBetweenMiddles.isNearestMultiple hstep ?_
  have hquotient : codeValue code / (1 / 10 ^ places) =
      (units code * 10 ^ places : ℕ) / (unitsPerOne : ℕ) := by
    rw [codeValue, div_div_eq_mul_div, div_one, div_mul_eq_mul_div, Nat.cast_mul, Nat.cast_pow,
      Nat.cast_ofNat]
  rw [hquotient]
  exact isBetweenMiddles_roundHalfEven _ unitsPerOne_pos

/-- A finite number is printed with its sign, whole digits and the chosen number of places, and what
is printed is the multiple of the last place that the exact value of the number rounds to. -/
theorem fixedPoint_rounds (hfinite : x.isFinite = true) (hplaces : 0 ≤ places)
    (hroom : places + 310 < 2 ^ 31) :
    ∃ (whole fraction : List Char) (n : ℤ), IsFixedNumeral places.toNat whole fraction ∧
      fixedPoint places x = .ok (String.ofList ((if isSigned x then ['-'] else []) ++
        (whole ++ if places = 0 then [] else '.' :: fraction))) ∧
      signFactor (signOf x) * numeralValue whole fraction = n * (1 / 10 ^ places.toNat) ∧
      IsNearestMultiple (1 / 10 ^ places.toNat) (value x) n := by
  obtain ⟨whole, fraction, hchars, hnumeral, hvalue⟩ :=
    exists_fixedChars_eq places.toNat (roundedSteps places.toNat (code x))
  obtain ⟨n, hn, hnearest⟩ :=
    (isNearestMultiple_roundedSteps places.toNat (code x)).exists_signed x
  refine ⟨whole, fraction, n, hnumeral, ?_, ?_, ?_⟩
  · have hnone : places.toNat = 0 ↔ places = 0 := by omega
    rw [fixedPoint_eq_ok hfinite hplaces hroom, fixed, ← roundedSteps, hchars]
    simp only [hnone]
  · rw [hvalue, hn, Int.cast_natCast, mul_one_div, mul_div_assoc]
  · rw [value_eq hfinite]
    exact hnearest

/-- A negative number that rounds to zero keeps its sign. -/
theorem fixedPoint_rounds_negative :
    ∃ (whole fraction : List Char) (n : ℤ), IsFixedNumeral 2 whole fraction ∧
      fixedPoint 2 (-0.001) = .ok (String.ofList ('-' :: (whole ++ '.' :: fraction))) ∧
      IsNearestMultiple (1 / 10 ^ 2) (value (-0.001)) n := by
  have hfinite : (-0.001 : Float).isFinite = true := by decide +kernel
  have hsigned : isSigned (-0.001) = true := by decide +kernel
  obtain ⟨whole, fraction, n, hnumeral, htext, -, hnearest⟩ :=
    @fixedPoint_rounds (-0.001) 2 hfinite (by decide) (by decide)
  rw [hsigned] at htext
  exact ⟨whole, fraction, n, hnumeral, htext, hnearest⟩

example : fixedPoint 2 (-0.001) = .ok "-0.00" ∧ fixedPoint 0 9.5 = .ok "10" ∧
    fixedPoint 2 0.125 = .ok "0.12" := by
  decide +kernel

/-- More places than there are 32-bit numbers above zero are refused. -/
theorem fixedPoint_tooManyPlaces : (1 : Float).isFinite = true ∧ (0 : Int) ≤ 2147483648 ∧
    fixedPoint 2147483648 1 = .error .tooManyPlaces := by
  decide +kernel

end LineCalculator
