import LineCalculator.Decimal
import LineCalculator.Proofs.Number.Nearest

/-!
# The decimal that stands for a code reads back

A decimal is compared with codes as a quotient of natural numbers.  The search for the decimal that
stands for a finite code ends at one that rounds to the code: on the finest grid the point below the
code's value always does.
-/

namespace LineCalculator.Decimal

open Binary64

/-- The numerator of the quotient that a decimal is. -/
def Scaled.num (d : Scaled) : Nat :=
  d.digits * 10 ^ d.exponent.toNat

/-- The denominator of the quotient that a decimal is. -/
def Scaled.den (d : Scaled) : Nat :=
  10 ^ (-d.exponent).toNat

/-- The code nearest to a decimal. -/
def Scaled.code (d : Scaled) : Nat :=
  nearest d.num d.den

theorem Scaled.den_pos (d : Scaled) : 0 < d.den :=
  Nat.pow_pos (by decide)

/-- Zeros at the end of the digits can be counted in the exponent. -/
theorem Scaled.code_shift {d d' : Scaled} {n : Nat} (hdigits : d.digits = d'.digits * 10 ^ n)
    (hexponent : d'.exponent = d.exponent + n) : d'.code = d.code := by
  refine nearest_eq_nearest d'.den_pos d.den_pos ?_
  have hpow : d'.exponent.toNat + (-d.exponent).toNat =
      n + d.exponent.toNat + (-d'.exponent).toNat := by
    omega
  simp only [Scaled.num, Scaled.den, hdigits]
  rw [Nat.mul_assoc, ← Nat.pow_add, hpow, Nat.pow_add, Nat.pow_add, Nat.mul_assoc, Nat.mul_assoc,
    Nat.mul_assoc]

theorem Scaled.code_of_digits_eq_zero {d : Scaled} (h : d.digits = 0) : d.code = nearest 0 1 := by
  refine nearest_eq_nearest d.den_pos (by decide) ?_
  rw [Scaled.num, h, Nat.zero_mul, Nat.zero_mul, Nat.zero_mul]

theorem Scaled.code_trimmed (d : Scaled) : d.trimmed.code = d.code := by
  induction d using Scaled.trimmed.induct with
  | case1 d hzero =>
      rw [Scaled.trimmed, dif_pos hzero, Scaled.code_of_digits_eq_zero hzero]
      exact Scaled.code_of_digits_eq_zero rfl
  | case2 d hne hmod ih =>
      rw [Scaled.trimmed, dif_neg hne, if_pos hmod, ih]
      refine Scaled.code_shift (n := 1) ?_ rfl
      exact (Nat.div_mul_cancel (Nat.dvd_of_mod_eq_zero hmod)).symm
  | case3 d hne hmod => rw [Scaled.trimmed, dif_neg hne, if_neg hmod]

/-! ## The search -/

variable {code : Nat}

theorem code_of_readsBack {k n : Nat} (hcode : code < infinity)
    (h : readsBack code k n = true) : Scaled.code ⟨n, k - finest⟩ = code := by
  have hden : 0 < 10 ^ finest := Nat.pow_pos (by decide)
  refine Eq.trans ?_ (nearest_eq_of_roundsTo hden hcode h)
  refine nearest_eq_nearest (Scaled.den_pos _) hden ?_
  have hpow : ((k : Int) - finest).toNat + finest = k + (-((k : Int) - finest)).toNat := by omega
  simp only [Scaled.num, Scaled.den]
  rw [Nat.mul_assoc, ← Nat.pow_add, hpow, Nat.pow_add, Nat.mul_assoc]

theorem readsBack_of_onGrid {k n : Nat} (h : onGrid code k = some n) :
    readsBack code k n = true := by
  unfold onGrid at h
  simp only at h
  split at h
  case h_1 => cases h
  case h_2 hlow _ =>
      cases h
      exact hlow
  case h_3 _ hhigh =>
      cases h
      exact hhigh
  case h_4 hlow hhigh =>
      split at h
      · cases h
        exact hlow
      · cases h
        exact hhigh

theorem exists_onGrid {k : Nat} (h : readsBack code k (stepsOf code / 10 ^ k) = true) :
    ∃ n, onGrid code k = some n := by
  unfold onGrid
  simp only [h]
  cases readsBack code k (stepsOf code / 10 ^ k + 1) with
  | false => exact ⟨_, rfl⟩
  | true =>
      simp only
      split
      · exact ⟨_, rfl⟩
      · exact ⟨_, rfl⟩

theorem two_mul_unitsPerOne_le : 2 * unitsPerOne ≤ 10 ^ finest := by
  decide +kernel

/-- On the finest grid the point below a code's value is nearer than half a gap. -/
theorem readsBack_stepsOf (code : Nat) : readsBack code 0 (stepsOf code) = true := by
  have hgap := two_mul_unitsPerOne_le
  have hunit : 0 < unitsPerOne := by decide +kernel
  have hgrid : 0 < 10 ^ finest := Nat.pow_pos (by decide)
  have hfloor : stepsOf code * unitsPerOne ≤ units code * 10 ^ finest := Nat.div_mul_le_self _ _
  have hceil : units code * 10 ^ finest < stepsOf code * unitsPerOne + unitsPerOne :=
    Nat.lt_div_mul_add hunit
  have habove := lt_middle_mul code hgrid
  have hbelow : code = 0 ∨
      middle (code - 1) * 10 ^ finest < 2 * (stepsOf code * unitsPerOne) := by
    refine (Nat.eq_zero_or_pos code).imp id fun hpos => ?_
    have hsucc : code - 1 + 1 = code := by omega
    have hunits := units_lt_units_succ (code - 1)
    rw [hsucc] at hunits
    have hmiddle : middle (code - 1) + 1 ≤ 2 * units code := by
      rw [middle, hsucc]
      omega
    have hmul := Nat.mul_le_mul_right (10 ^ finest) hmiddle
    rw [Nat.add_mul, Nat.one_mul, Nat.mul_assoc] at hmul
    omega
  simp only [readsBack, roundsTo, Nat.pow_zero, Nat.mul_one]
  refine decide_eq_true ⟨hbelow.imp id Or.inl, Or.inl ?_⟩
  omega

theorem code_searchGrids (hcode : code < infinity) (k : Nat) :
    (searchGrids code k).code = code := by
  induction k with
  | zero =>
      have hsteps : readsBack code 0 (stepsOf code / 10 ^ 0) = true := by
        rw [Nat.pow_zero, Nat.div_one]
        exact readsBack_stepsOf code
      obtain ⟨n, hgrid⟩ := exists_onGrid hsteps
      have hzero : -(finest : Int) = (0 : Nat) - finest := by omega
      rw [searchGrids, hgrid, Option.getD_some, hzero]
      exact code_of_readsBack hcode (readsBack_of_onGrid hgrid)
  | succ k ih =>
      rw [searchGrids]
      split
      case h_1 n hgrid => exact code_of_readsBack hcode (readsBack_of_onGrid hgrid)
      case h_2 => exact ih

/-- The decimal that stands for a finite code reads back to it. -/
theorem code_shortest (hcode : code < infinity) : (shortest code).code = code := by
  rw [shortest, Scaled.code_trimmed, code_searchGrids hcode]

end LineCalculator.Decimal
