import Mathlib.Data.List.Basic
import LineCalculator.Proofs.Number.Written

/-!
# Distinct numbers are written differently

A number that is written plainly is read back from what is written.  A number with an exponent has
all digits of the decimal that stands for it in front of the exponent, so the decimal can be
recovered, and with it the number.  Which of the two is the case shows in the text, and infinity has
a text of its own.
-/

namespace LineCalculator.Decimal

variable {layout : Layout} {d d' : Scaled}

/-! ## Exponents -/

theorem mem_exponentChars {width : Nat} {e : Int} {c : Char} (h : c ∈ exponentChars width e) :
    c.isDigit = true ∨ c = '+' ∨ c = '-' := by
  rw [exponentChars, List.mem_cons] at h
  rcases h with h | h
  · split at h
    · exact Or.inr (Or.inr h)
    · exact Or.inr (Or.inl h)
  · exact Or.inl (isDigit_of_mem_leftpad h)

/-- The sign and the size of an exponent show in what is written. -/
theorem exponentChars_inj {width : Nat} {e e' : Int}
    (h : exponentChars width e = exponentChars width e') : e = e' := by
  obtain ⟨hsign, hdigits⟩ := List.cons.inj h
  have hnegative : e < 0 ↔ e' < 0 := by
    by_cases hneg : e < 0
    · by_cases hneg' : e' < 0
      · exact iff_of_true hneg hneg'
      · rw [if_pos hneg, if_neg hneg'] at hsign
        exact absurd hsign (by decide)
    · by_cases hneg' : e' < 0
      · rw [if_neg hneg, if_pos hneg'] at hsign
        exact absurd hsign (by decide)
      · exact iff_of_false hneg hneg'
  have habs : e.natAbs = e'.natAbs := by
    rw [← ofDigitChars_leftpad width e.natAbs, hdigits, ofDigitChars_leftpad]
  omega

/-- A decimal that is written with an exponent can be recovered from what is written. -/
theorem write_inj (h : ¬ layout.IsPlain d) (h' : ¬ layout.IsPlain d')
    (heq : layout.write d = layout.write d') : d = d' := by
  have hdigits : ∀ n, ∀ c ∈ Nat.toDigits 10 n, c.isDigit = true := fun _ _ => isDigit_of_mem_digits
  have hmantissa : 'e' ∉ mantissaChars (Nat.toDigits 10 d.digits) := fun hmem =>
    absurd (mem_mantissaChars (hdigits _) hmem) (by decide)
  have hexponent : 'e' ∉ exponentChars layout.exponentWidth (d.place - 1) := fun hmem =>
    absurd (mem_exponentChars hmem) (by decide)
  rw [write_of_not_isPlain h, write_of_not_isPlain h',
    List.append_cons_inj_of_notMem hmantissa hexponent] at heq
  obtain ⟨hfront, -, hback⟩ := heq
  have hsame : Nat.toDigits 10 d.digits = Nat.toDigits 10 d'.digits := by
    rw [← filter_mantissaChars (hdigits d.digits), hfront, filter_mantissaChars (hdigits d'.digits)]
  have hplace := exponentChars_inj hback
  rw [Scaled.place, Scaled.place, hsame] at hplace
  have hnumber : d.digits = d'.digits := by
    rw [← Nat.ofDigitChars_ten_toDigits (n := d.digits), hsame, Nat.ofDigitChars_ten_toDigits]
  have hscale : d.exponent = d'.exponent := by omega
  cases d
  cases d'
  simp only at hnumber hscale
  rw [hnumber, hscale]

end LineCalculator.Decimal

namespace LineCalculator

open Binary64 Decimal

variable {code code' : Nat}

/-! ## Numbers -/

/-- A finite number starts with a digit and has only digits, points, signs and the letter of an
exponent in it. -/
structure IsNumberText (text : List Char) : Prop where
  exists_cons : ∃ c cs, text = c :: cs ∧ (c.isDigit = true ∨ c = '.')
  chars : ∀ c ∈ text, c.isDigit = true ∨ c ∈ ['.', 'e', '+', '-']

theorem IsLexeme.isNumberText {text : List Char} (h : IsLexeme .number text) :
    IsNumberText text := by
  obtain ⟨c, cs, rfl⟩ := List.exists_cons_of_ne_nil h.ne_nil
  refine ⟨⟨c, cs, rfl, h.isDigit_or_of_number c (List.mem_cons_self)⟩, fun d hd => ?_⟩
  exact (h.isDigit_or_of_number d hd).imp_right fun hpoint => by simp [hpoint]

theorem isNumberText_write (h : ¬ numberLayout.IsPlain (shortest code)) :
    IsNumberText (numberLayout.write (shortest code)) := by
  have hdigits : ∀ c ∈ Nat.toDigits 10 (shortest code).digits, c.isDigit = true :=
    fun _ => isDigit_of_mem_digits
  rw [write_of_not_isPlain h]
  constructor
  · obtain ⟨c, cs, hcons⟩ := List.exists_cons_of_ne_nil (Nat.toDigits_ne_nil (b := 10))
    have hmem : c ∈ Nat.toDigits 10 (shortest code).digits := by rw [hcons]; exact List.mem_cons_self
    rw [hcons, mantissaChars]
    exact ⟨c, _, rfl, Or.inl (hdigits c hmem)⟩
  · intro c hc
    rcases List.mem_append.mp hc with hc | hc
    · exact (mem_mantissaChars hdigits hc).imp_right fun hpoint => by simp [hpoint]
    · rcases List.mem_cons.mp hc with rfl | hc
      · exact Or.inr (by decide)
      · rcases mem_exponentChars hc with hdigit | rfl | rfl
        · exact Or.inl hdigit
        · exact Or.inr (by decide)
        · exact Or.inr (by decide)

theorem isNumberText_numberChars (hcode : code < infinity) :
    IsNumberText (numberChars (ofCode code)) := by
  by_cases hplain : IsPlainNumber (ofCode code)
  · exact (numberChars_of_isPlainNumber (Nat.le_of_lt hcode) hplain).1.isNumberText
  · have hrange := isPlainNumber_ofCode_iff (Nat.le_of_lt hcode)
    rw [numberChars_ofCode hcode]
    exact isNumberText_write fun h => hplain (hrange.mpr ((isPlain_shortest_iff hcode).mp h))

theorem not_isNumberText_infinity : ¬ IsNumberText ['i', 'n', 'f'] := fun h =>
  absurd (h.chars 'i' List.mem_cons_self) (by decide)

theorem numberChars_inj_of_finite (hcode : code < infinity) (hcode' : code' < infinity)
    (heq : numberChars (ofCode code) = numberChars (ofCode code')) : code = code' := by
  have h := Nat.le_of_lt hcode
  have h' := Nat.le_of_lt hcode'
  have hexponent : HasExponent (ofCode code) ↔ HasExponent (ofCode code') := by
    rw [HasExponent, HasExponent, heq]
  rw [hasExponent_ofCode_iff h, hasExponent_ofCode_iff h'] at hexponent
  by_cases hplain : IsPlainNumber (ofCode code)
  · have hplain' : IsPlainNumber (ofCode code') := by
      by_contra hnot
      exact (hexponent.mpr ⟨hnot, Nat.ne_of_lt hcode'⟩).1 hplain
    refine ofCode_inj h h' ?_
    rw [← (numberChars_of_isPlainNumber h hplain).2, heq,
      (numberChars_of_isPlainNumber h' hplain').2]
  · have hplain' := (hexponent.mp ⟨hplain, Nat.ne_of_lt hcode⟩).1
    rw [isPlainNumber_ofCode_iff h, ← isPlain_shortest_iff hcode] at hplain
    rw [isPlainNumber_ofCode_iff h', ← isPlain_shortest_iff hcode'] at hplain'
    rw [numberChars_ofCode hcode, numberChars_ofCode hcode'] at heq
    rw [← code_shortest hcode, write_inj hplain hplain' heq, code_shortest hcode']

/-- Distinct numbers are written differently. -/
theorem numberChars_inj (h : code ≤ infinity) (h' : code' ≤ infinity)
    (heq : numberChars (ofCode code) = numberChars (ofCode code')) : code = code' := by
  rcases Nat.lt_or_eq_of_le h with hcode | rfl
  · rcases Nat.lt_or_eq_of_le h' with hcode' | rfl
    · exact numberChars_inj_of_finite hcode hcode' heq
    · have htext := isNumberText_numberChars hcode
      rw [heq, numberChars_infinity] at htext
      exact absurd htext not_isNumberText_infinity
  · rcases Nat.lt_or_eq_of_le h' with hcode' | rfl
    · have htext := isNumberText_numberChars hcode'
      rw [← heq, numberChars_infinity] at htext
      exact absurd htext not_isNumberText_infinity
    · rfl

end LineCalculator
