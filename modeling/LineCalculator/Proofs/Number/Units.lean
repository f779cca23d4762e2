import LineCalculator.Binary64

/-!
# Codes and their values

A code is a whole number of exponent steps and a significand.  Read this way, the next code up has
the next significand under the same exponent, even where it belongs to the next exponent step, so
that values grow strictly with the codes.
-/

namespace LineCalculator.Binary64

/-- A significand of 53 binary digits with the number of zeros behind it, also when it has grown to
54 digits, and a smaller significand without zeros. -/
structure IsParts (k q : Nat) : Prop where
  le : q ≤ 2 ^ 53
  full : k = 0 ∨ 2 ^ 52 ≤ q

theorem units_of_isParts {k q : Nat} (h : IsParts k q) : units (k * 2 ^ 52 + q) = q * 2 ^ k := by
  obtain ⟨hle, hfull⟩ := h
  have hfields : ∀ e f, f < 2 ^ 52 → units (e * 2 ^ 52 + f) =
      if e = 0 then f else (2 ^ 52 + f) * 2 ^ (e - 1) := by
    intro e f hf
    have he : (e * 2 ^ 52 + f) / 2 ^ 52 = e := by omega
    have hmod : (e * 2 ^ 52 + f) % 2 ^ 52 = f := by omega
    simp only [units, he, hmod]
  by_cases hsmall : q < 2 ^ 52
  · have hk : k = 0 := by omega
    subst hk
    rw [hfields 0 q hsmall, if_pos rfl, Nat.pow_zero, Nat.mul_one]
  · by_cases hmax : q = 2 ^ 53
    · have hcode : k * 2 ^ 52 + q = (k + 2) * 2 ^ 52 + 0 := by omega
      rw [hcode, hfields (k + 2) 0 (by decide), if_neg (by omega), hmax]
      have hpow : 2 ^ (k + 2 - 1) = 2 * 2 ^ k := by
        rw [Nat.add_sub_assoc (by decide), Nat.pow_succ, Nat.mul_comm]
      rw [hpow]
      omega
    · have hcode : k * 2 ^ 52 + q = (k + 1) * 2 ^ 52 + (q - 2 ^ 52) := by omega
      have hq : 2 ^ 52 + (q - 2 ^ 52) = q := by omega
      rw [hcode, hfields (k + 1) (q - 2 ^ 52) (by omega), if_neg (by omega), hq,
        Nat.add_sub_cancel]

/-- Every code has parts that leave room for the next significand. -/
theorem exists_isParts (code : Nat) : ∃ k q, code = k * 2 ^ 52 + q ∧ q < 2 ^ 53 ∧ IsParts k q := by
  by_cases hsmall : code < 2 ^ 53
  · exact ⟨0, code, by omega, hsmall, by omega, Or.inl rfl⟩
  · exact ⟨code / 2 ^ 52 - 1, code % 2 ^ 52 + 2 ^ 52, by omega, by omega, by omega,
      Or.inr (by omega)⟩

theorem units_lt_units_succ (code : Nat) : units code < units (code + 1) := by
  obtain ⟨k, q, rfl, hq, hparts⟩ := exists_isParts code
  have hnext : IsParts k (q + 1) := ⟨hq, hparts.full.imp id fun h => by omega⟩
  rw [units_of_isParts hparts, Nat.add_assoc, units_of_isParts hnext]
  exact Nat.mul_lt_mul_of_pos_right (Nat.lt_succ_self q) (Nat.two_pow_pos k)

theorem units_le_units {code code' : Nat} (h : code ≤ code') : units code ≤ units code' := by
  induction h with
  | refl => exact Nat.le_refl _
  | step _ ih => exact Nat.le_trans ih (Nat.le_of_lt (units_lt_units_succ _))

theorem units_lt_units {code code' : Nat} (h : code < code') : units code < units code' :=
  Nat.lt_of_lt_of_le (units_lt_units_succ code) (units_le_units h)

theorem middle_lt_middle {code code' : Nat} (h : code < code') : middle code < middle code' :=
  Nat.add_lt_add (units_lt_units h) (units_lt_units (Nat.succ_lt_succ h))

/-! ## The code below a value -/

theorem isParts_of_log2 (n : Nat) :
    IsParts (n.log2 - 52) (n / 2 ^ (n.log2 - 52)) ∧ n / 2 ^ (n.log2 - 52) < 2 ^ 53 := by
  by_cases hn : n = 0
  · subst hn
    exact ⟨⟨by decide, Or.inl (by decide)⟩, by decide⟩
  have hlow : 2 ^ n.log2 ≤ n := Nat.log2_self_le hn
  have hhigh : n < 2 ^ (n.log2 + 1) := Nat.lt_log2_self
  by_cases hlog : n.log2 ≤ 52
  · have hzero : n.log2 - 52 = 0 := by omega
    have hpow : 2 ^ (n.log2 + 1) ≤ 2 ^ 53 := Nat.pow_le_pow_right (by decide) (by omega)
    rw [hzero]
    exact ⟨⟨by omega, Or.inl rfl⟩, by omega⟩
  · have hsplit : n.log2 = 52 + (n.log2 - 52) := by omega
    generalize n.log2 - 52 = k at *
    have hlow' : 2 ^ 52 * 2 ^ k ≤ n := by
      rw [← Nat.pow_add, ← hsplit]
      exact hlow
    have hhigh' : n < 2 ^ 53 * 2 ^ k := by
      rw [← Nat.pow_add]
      rw [hsplit] at hhigh
      rwa [Nat.add_right_comm] at hhigh
    have hlt : n / 2 ^ k < 2 ^ 53 := (Nat.div_lt_iff_lt_mul (Nat.two_pow_pos k)).mpr hhigh'
    exact ⟨⟨Nat.le_of_lt hlt, Or.inr ((Nat.le_div_iff_mul_le (Nat.two_pow_pos k)).mpr hlow')⟩, hlt⟩

theorem floorCode_le_infinity (n : Nat) : floorCode n ≤ infinity :=
  Nat.min_le_left _ _

theorem units_floorCode_le (n : Nat) : units (floorCode n) ≤ n := by
  obtain ⟨hparts, -⟩ := isParts_of_log2 n
  refine Nat.le_trans (units_le_units (Nat.min_le_right _ _)) ?_
  rw [units_of_isParts hparts]
  exact Nat.div_mul_le_self n _

theorem lt_units_floorCode_succ {n : Nat} (h : floorCode n < infinity) :
    n < units (floorCode n + 1) := by
  obtain ⟨hparts, hlt⟩ := isParts_of_log2 n
  have hcode : floorCode n = (n.log2 - 52) * 2 ^ 52 + n / 2 ^ (n.log2 - 52) := by
    simp only [floorCode] at h ⊢
    omega
  have hnext : IsParts (n.log2 - 52) (n / 2 ^ (n.log2 - 52) + 1) :=
    ⟨hlt, hparts.full.imp id fun h => by omega⟩
  rw [hcode, Nat.add_assoc, units_of_isParts hnext, Nat.mul_comm]
  exact Nat.lt_mul_div_succ n (Nat.two_pow_pos _)

end LineCalculator.Binary64
