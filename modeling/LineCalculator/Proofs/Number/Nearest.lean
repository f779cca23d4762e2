import LineCalculator.Proofs.Number.Units

/-!
# Rounding to the nearest code

The code nearest to a quotient is stated by the two middles that enclose the quotient, so it depends
on the value of the quotient alone and grows with it.  Quotients are compared by their cross
products.
-/

namespace LineCalculator.Binary64

/-- A quotient lies between the middles around a code, and on a middle only if the code is even.  No
middle lies below zero or above infinity. -/
structure IsNearest (num den code : Nat) : Prop where
  le_infinity : code ≤ infinity
  above : code = 0 ∨ middle (code - 1) * den < 2 * (num * unitsPerOne) ∨
    (middle (code - 1) * den = 2 * (num * unitsPerOne) ∧ code % 2 = 0)
  below : code = infinity ∨ 2 * (num * unitsPerOne) < middle code * den ∨
    (2 * (num * unitsPerOne) = middle code * den ∧ code % 2 = 0)

theorem middle_pred_mul_lt {code den : Nat} (hcode : code ≠ 0) (hden : 0 < den) :
    middle (code - 1) * den < 2 * (units code * den) := by
  have hsucc : code - 1 + 1 = code := by omega
  have hlt := units_lt_units_succ (code - 1)
  rw [hsucc] at hlt
  rw [middle, hsucc, Nat.add_mul]
  have hmul := Nat.mul_lt_mul_of_pos_right hlt hden
  omega

theorem lt_middle_mul (code : Nat) {den : Nat} (hden : 0 < den) :
    2 * (units code * den) < middle code * den := by
  have hmul := Nat.mul_lt_mul_of_pos_right (units_lt_units_succ code) hden
  rw [middle, Nat.add_mul]
  omega

theorem isNearest_nearest (num : Nat) {den : Nat} (hden : 0 < den) :
    IsNearest num den (nearest num den) := by
  have hfloor : units (floorCode (num * unitsPerOne / den)) * den ≤ num * unitsPerOne :=
    (Nat.le_div_iff_mul_le hden).mp (units_floorCode_le _)
  have hceil : floorCode (num * unitsPerOne / den) < infinity →
      num * unitsPerOne < units (floorCode (num * unitsPerOne / den) + 1) * den :=
    fun h => (Nat.div_lt_iff_lt_mul hden).mp (lt_units_floorCode_succ h)
  have hle := floorCode_le_infinity (num * unitsPerOne / den)
  unfold nearest
  simp only
  generalize floorCode (num * unitsPerOne / den) = low at *
  have habove : low = 0 ∨ middle (low - 1) * den < 2 * (num * unitsPerOne) := by
    by_cases hzero : low = 0
    · exact Or.inl hzero
    · exact Or.inr (Nat.lt_of_lt_of_le (middle_pred_mul_lt hzero hden) (by omega))
  split
  case isTrue hinf =>
      subst hinf
      exact ⟨Nat.le_refl _, habove.imp id Or.inl, Or.inl rfl⟩
  case isFalse hfinite =>
      split
      case isTrue hlt => exact ⟨hle, habove.imp id Or.inl, Or.inr (Or.inl hlt)⟩
      case isFalse hge =>
          split
          case isTrue htie => exact ⟨hle, habove.imp id Or.inl, Or.inr (Or.inr htie)⟩
          case isFalse hodd =>
              have hnext := hceil (Nat.lt_of_le_of_ne hle hfinite)
              have hmiddle := lt_middle_mul (low + 1) hden
              refine ⟨by omega, Or.inr ?_, Or.inr (Or.inl (by omega))⟩
              rw [Nat.add_sub_cancel]
              omega

/-- A quotient above the middle below a code is below the middle above a smaller code only if the two
middles are the same, and then it is that middle. -/
theorem eq_of_middle_le {a b den den' code code' : Nat} (hlt : code' < code) (hden : 0 < den)
    (hden' : 0 < den') (ha : middle (code - 1) * den ≤ a) (hab : a * den' ≤ b * den)
    (hb : b ≤ middle code' * den') :
    code' = code - 1 ∧ a = middle (code - 1) * den ∧ b = middle code' * den' := by
  have ha' := Nat.mul_le_mul_right den' ha
  have hb' := Nat.mul_le_mul_right den hb
  have hswap : middle code' * den' * den = middle code' * den * den' := Nat.mul_right_comm _ _ _
  have hcode : code' = code - 1 := by
    refine Nat.le_antisymm (by omega) (Nat.le_of_not_lt fun hmid => ?_)
    have hlt' := Nat.mul_lt_mul_of_pos_right (middle_lt_middle hmid) hden
    have hlt'' := Nat.mul_lt_mul_of_pos_right hlt' hden'
    omega
  subst hcode
  have ha'' : a * den' = middle (code - 1) * den * den' := by omega
  have hb'' : b * den = middle (code - 1) * den' * den := by omega
  exact ⟨rfl, Nat.eq_of_mul_eq_mul_right hden' ha'', Nat.eq_of_mul_eq_mul_right hden hb''⟩

theorem IsNearest.le_of_le {num num' den den' code code' : Nat} (h : IsNearest num den code)
    (h' : IsNearest num' den' code') (hden : 0 < den) (hden' : 0 < den')
    (hle : num * den' ≤ num' * den) : code ≤ code' := by
  refine Nat.le_of_not_lt fun hlt => ?_
  have hfinite : code' ≠ infinity := by
    have hinf := h.le_infinity
    omega
  have hvalues : ∀ unit, 2 * (num * unit) * den' ≤ 2 * (num' * unit) * den := by
    intro unit
    calc 2 * (num * unit) * den' = 2 * unit * (num * den') := by ac_rfl
      _ ≤ 2 * unit * (num' * den) := Nat.mul_le_mul_left (2 * unit) hle
      _ = 2 * (num' * unit) * den := by ac_rfl
  have hlow : middle (code - 1) * den ≤ 2 * (num * unitsPerOne) := by
    have habove := h.above
    omega
  have hhigh : 2 * (num' * unitsPerOne) ≤ middle code' * den' := by
    have hbelow := h'.below
    omega
  obtain ⟨hcode, hnum, hnum'⟩ := eq_of_middle_le hlt hden hden' hlow (hvalues unitsPerOne) hhigh
  have habove := h.above
  have hbelow := h'.below
  omega

/-- Equal quotients have the same nearest code. -/
theorem IsNearest.unique {num num' den den' code code' : Nat} (h : IsNearest num den code)
    (h' : IsNearest num' den' code') (hden : 0 < den) (hden' : 0 < den')
    (heq : num * den' = num' * den) : code = code' :=
  Nat.le_antisymm (h.le_of_le h' hden hden' (Nat.le_of_eq heq))
    (h'.le_of_le h hden' hden (Nat.le_of_eq heq.symm))

theorem nearest_le_nearest {num num' den den' : Nat} (hden : 0 < den) (hden' : 0 < den')
    (hle : num * den' ≤ num' * den) : nearest num den ≤ nearest num' den' :=
  (isNearest_nearest num hden).le_of_le (isNearest_nearest num' hden') hden hden' hle

theorem nearest_eq_nearest {num num' den den' : Nat} (hden : 0 < den) (hden' : 0 < den')
    (heq : num * den' = num' * den) : nearest num den = nearest num' den' :=
  (isNearest_nearest num hden).unique (isNearest_nearest num' hden') hden hden' heq

theorem nearest_le_infinity (num : Nat) {den : Nat} (hden : 0 < den) :
    nearest num den ≤ infinity :=
  (isNearest_nearest num hden).le_infinity

/-- A quotient in the interval that rounds to a finite code rounds to the code. -/
theorem nearest_eq_of_roundsTo {num den code : Nat} (hden : 0 < den) (hcode : code < infinity)
    (h : roundsTo num den code = true) : nearest num den = code := by
  simp only [roundsTo, decide_eq_true_eq] at h
  have hnearest : IsNearest num den code := ⟨Nat.le_of_lt hcode, h.1, Or.inr h.2⟩
  exact (isNearest_nearest num hden).unique hnearest hden hden rfl

end LineCalculator.Binary64
