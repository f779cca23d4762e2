import Mathlib.Data.List.TakeWhile
import LineCalculator.Proofs.Number.Numeral
import LineCalculator.Proofs.Number.Rounding

/-!
# What decimal numerals denote

A numeral is made of digits with at most one point, and denotes a rational number place by place: an
empty side of the point counts as zero.  Reading a numeral rounds the number that it denotes, so the
double that is read depends on that number alone and grows with it.
-/

namespace LineCalculator.Decimal

open Binary64

/-- The number that digits before and after a point denote. -/
def numeralValue (whole fraction : List Char) : ℚ :=
  Nat.ofDigitChars 10 whole 0 + Nat.ofDigitChars 10 fraction 0 / 10 ^ fraction.length

/-- A numeral and the number that it denotes. -/
inductive Denotes : List Char → ℚ → Prop
  | whole {digits : List Char} (hne : digits ≠ []) (hdigits : ∀ c ∈ digits, c.isDigit = true) :
      Denotes digits (numeralValue digits [])
  | point {whole fraction : List Char} (hwhole : ∀ c ∈ whole, c.isDigit = true)
      (hfraction : ∀ c ∈ fraction, c.isDigit = true) :
      Denotes (whole ++ '.' :: fraction) (numeralValue whole fraction)

variable {text text' whole fraction : List Char} {q q' : ℚ}

/-! ## The number as a quotient -/

/-- The digits on both sides of the point, taken together, count units of the last place. -/
theorem numeralValue_eq (whole fraction : List Char) : numeralValue whole fraction =
    (Nat.ofDigitChars 10 (whole ++ fraction) 0 : ℕ) / (10 ^ fraction.length : ℕ) := by
  have hten : (10 : ℚ) ^ fraction.length ≠ 0 := pow_ne_zero _ (by norm_num)
  have hdigits : Nat.ofDigitChars 10 (whole ++ fraction) 0 =
      10 ^ fraction.length * Nat.ofDigitChars 10 whole 0 + Nat.ofDigitChars 10 fraction 0 := by
    rw [Nat.ofDigitChars_append, Nat.ofDigitChars_eq_ofDigitChars_zero]
  rw [numeralValue, hdigits, Nat.cast_add, Nat.cast_mul, Nat.cast_pow, Nat.cast_ofNat, add_div,
    mul_div_cancel_left₀ _ hten]

/-- The digits of a numeral without its point. -/
def numeralDigits (text : List Char) : Nat :=
  Nat.ofDigitChars 10 (wholePart text ++ fractionPart text) 0

theorem Denotes.eq_div (h : Denotes text q) :
    q = (numeralDigits text : ℕ) / (10 ^ (fractionPart text).length : ℕ) := by
  cases h with
  | whole _ hdigits =>
      have hkeep := bne_point_of_digits hdigits
      have hwhole : wholePart text = text := List.takeWhile_eq_self_iff.mpr hkeep
      have hfraction : fractionPart text = [] := by
        rw [fractionPart, List.dropWhile_eq_nil_iff.mpr hkeep, List.drop_nil]
      rw [numeralValue_eq, numeralDigits, hwhole, hfraction]
  | point hwhole _ =>
      rw [numeralValue_eq, numeralDigits, wholePart_append_point hwhole,
        fractionPart_append_point hwhole]

/-- A numeral denotes one number only. -/
theorem Denotes.unique (h : Denotes text q) (h' : Denotes text q') : q = q' :=
  h.eq_div.trans h'.eq_div.symm

/-- Every run of digits with at most one point is a numeral. -/
theorem exists_denotes (hne : text ≠ []) (hdigits : ∀ c ∈ text, c.isDigit = true ∨ c = '.')
    (hpoint : text.count '.' ≤ 1) : ∃ q, Denotes text q := by
  by_cases hmem : '.' ∈ text
  · obtain ⟨whole, fraction, rfl⟩ := List.append_of_mem hmem
    rw [List.count_append, List.count_cons_self] at hpoint
    have hside : ∀ cs : List Char, cs.count '.' = 0 → (∀ c ∈ cs, c ∈ whole ++ '.' :: fraction) →
        ∀ c ∈ cs, c.isDigit = true := by
      intro cs hcount hsub c hc
      refine (hdigits c (hsub c hc)).resolve_right ?_
      rintro rfl
      exact List.count_eq_zero.mp hcount hc
    exact ⟨_, .point (hside whole (by omega) fun c hc => by simp [hc])
      (hside fraction (by omega) fun c hc => by simp [hc])⟩
  · refine ⟨_, .whole hne fun c hc => (hdigits c hc).resolve_right ?_⟩
    rintro rfl
    exact hmem hc

/-! ## Zeros that do not count -/

theorem numeralValue_zeros_append (n : Nat) (whole fraction : List Char) :
    numeralValue (List.replicate n '0' ++ whole) fraction = numeralValue whole fraction := by
  rw [numeralValue, numeralValue, Nat.ofDigitChars_append, Nat.ofDigitChars_replicate_zero,
    Nat.mul_zero]

theorem numeralValue_append_zeros (n : Nat) (whole fraction : List Char) :
    numeralValue whole (fraction ++ List.replicate n '0') = numeralValue whole fraction := by
  have hten : (10 : ℚ) ^ n ≠ 0 := pow_ne_zero _ (by norm_num)
  rw [numeralValue, numeralValue, Nat.ofDigitChars_append, Nat.ofDigitChars_replicate_zero,
    List.length_append, List.length_replicate, pow_add, Nat.cast_mul, Nat.cast_pow, Nat.cast_ofNat,
    mul_comm, mul_div_mul_right _ _ hten]

theorem Denotes.zeros_append (h : Denotes text q) (n : Nat) :
    Denotes (List.replicate n '0' ++ text) q := by
  have hzeros : ∀ cs : List Char, (∀ c ∈ cs, c.isDigit = true) →
      ∀ c ∈ List.replicate n '0' ++ cs, c.isDigit = true :=
    fun cs hcs c hc => (List.mem_append.mp hc).elim isDigit_of_mem_zeros (hcs c)
  cases h with
  | whole hne hdigits =>
      rw [← numeralValue_zeros_append n]
      exact .whole (List.append_ne_nil_of_right_ne_nil _ hne) (hzeros _ hdigits)
  | point hwhole hfraction =>
      rw [← numeralValue_zeros_append n, ← List.append_assoc]
      exact .point (hzeros _ hwhole) hfraction

theorem Denotes.append_zeros (h : Denotes text q) (hpoint : '.' ∈ text) (n : Nat) :
    Denotes (text ++ List.replicate n '0') q := by
  cases h with
  | whole _ hdigits => exact absurd hpoint (point_notMem_of_isDigit hdigits)
  | point hwhole hfraction =>
      rw [← numeralValue_append_zeros n, List.append_assoc, List.cons_append]
      refine .point hwhole fun c hc => ?_
      exact (List.mem_append.mp hc).elim (hfraction c) isDigit_of_mem_zeros

/-! ## Reading -/

/-- A numeral is read as the double that its number rounds to. -/
theorem Denotes.isNearestDouble_read (h : Denotes text q) : IsNearestDouble q (read text) := by
  rw [h.eq_div]
  exact isNearestDouble_nearest _ (Nat.pow_pos (by decide))

/-- A numeral of a number that is not smaller is not read as a smaller double. -/
theorem Denotes.read_le_read (h : Denotes text q) (h' : Denotes text' q') (hle : q ≤ q') :
    read text ≤ read text' := by
  have hpos : 0 < 10 ^ (fractionPart text).length := Nat.pow_pos (by decide)
  have hpos' : 0 < 10 ^ (fractionPart text').length := Nat.pow_pos (by decide)
  rw [h.eq_div, h'.eq_div, ← not_lt, natDiv_lt_natDiv_iff hpos' hpos, Nat.not_lt] at hle
  exact (ofCode_le_iff (nearest_le_infinity _ hpos) (nearest_le_infinity _ hpos')).mpr
    (nearest_le_nearest hpos hpos' hle)

/-- Numerals of one number are read as the same double. -/
theorem Denotes.read_eq_read (h : Denotes text q) (h' : Denotes text' q) :
    read text = read text' := by
  have hpos : 0 < 10 ^ (fractionPart text).length := Nat.pow_pos (by decide)
  have hpos' : 0 < 10 ^ (fractionPart text').length := Nat.pow_pos (by decide)
  have heq := h.eq_div.symm.trans h'.eq_div
  rw [natDiv_eq_natDiv_iff hpos hpos'] at heq
  exact congrArg ofCode (nearest_eq_nearest hpos hpos' heq)

end LineCalculator.Decimal
