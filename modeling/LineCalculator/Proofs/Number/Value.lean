import Mathlib.Algebra.Order.Field.Power
import Mathlib.Data.Rat.Floor
import Mathlib.Tactic.FieldSimp
import Mathlib.Tactic.Linarith
import Mathlib.Tactic.Positivity
import LineCalculator.Proofs.Number.Codes

/-!
# The exact values of doubles

A finite double is a rational number: its significand times a power of two, with its sign.  This is
read off the unpacked form of the double.  The code and the sign bit, which rounding and writing
look at, say the same: the value is the value of the code in units, and the significand is even
exactly when the code is.
-/

namespace LineCalculator.Binary64

open Float.Model Float.Model.UnpackedFloat

/-- A sign as a factor. -/
def signFactor : Sign → ℚ
  | .positive => 1
  | .negative => -1

/-- The exact value of an unpacked double.  Infinities and not-a-number have none and count as
zero. -/
def unpackedValue : UnpackedFloat → ℚ
  | .finite sign significand exponent _ => signFactor sign * (significand * 2 ^ exponent)
  | _ => 0

/-- The exact value of a finite double. -/
def value (x : Float) : ℚ :=
  unpackedValue x.toModel.unpack

/-- The significand of an unpacked double, which is zero for zeros. -/
def unpackedSignificand : UnpackedFloat → ℕ
  | .finite _ significand _ _ => significand
  | _ => 0

/-- The significand of a finite double. -/
def significand (x : Float) : ℕ :=
  unpackedSignificand x.toModel.unpack

/-- The sign that the sign bit of a double stands for. -/
def signOf (x : Float) : Sign :=
  if isSigned x then .negative else .positive

/-- The exact value of a code. -/
def codeValue (code : Nat) : ℚ :=
  units code / unitsPerOne

variable {x : Float} {code code' : Nat} {u : UnpackedFloat}

/-! ## Bits -/

/-- The bits of a double. -/
def floatBits (x : Float) : BitVec Format.binary64.numBits :=
  x.toBits.toBitVec

/-- The same unpacked double with another sign. -/
def withSign (sign : Sign) : UnpackedFloat → UnpackedFloat
  | .infinity _ => .infinity sign
  | .notANumber => .notANumber
  | .zero _ => .zero sign
  | .finite _ significand exponent hpos => .finite sign significand exponent hpos

theorem toNat_unpackMantissa (b : BitVec Format.binary64.numBits) :
    (unpackMantissa b).toNat = b.toNat % 2 ^ 52 := by
  unfold unpackMantissa
  simp [Format.binary64]

theorem toNat_unpackExponent (b : BitVec Format.binary64.numBits) :
    (unpackExponent b).toNat = b.toNat / 2 ^ 52 % 2 ^ 11 := by
  unfold unpackExponent
  simp [Nat.shiftRight_eq_div_pow, Format.binary64]

theorem ofBitVec_unpackSign (b : BitVec Format.binary64.numBits) :
    Sign.ofBitVec (unpackSign b) = if 2 ^ 63 ≤ b.toNat then .negative else .positive := by
  have hlt : b.toNat < 2 ^ 64 := b.isLt
  have hsign : (unpackSign b).toNat = b.toNat / 2 ^ 63 := by
    unfold unpackSign
    simp [Nat.shiftRight_eq_div_pow, Format.binary64]
    omega
  have hzero : unpackSign b = 0#1 ↔ b.toNat < 2 ^ 63 := by
    rw [← BitVec.toNat_inj, hsign]
    simp only [BitVec.toNat_ofNat]
    omega
  by_cases hnegative : 2 ^ 63 ≤ b.toNat
  · rw [if_pos hnegative, Sign.ofBitVec, if_neg (by rw [hzero]; omega)]
  · rw [if_neg hnegative, Sign.ofBitVec, if_pos (by rw [hzero]; omega)]

theorem finite_eq_finite {sign : Sign} {m m' : Nat} {e e' : Int} {hpos : 0 < m} {hpos' : 0 < m'}
    (hm : m = m') (he : e = e') :
    UnpackedFloat.finite sign m e hpos = .finite sign m' e' hpos' := by
  subst hm he
  rfl

/-- Bits that differ at most in the sign are unpacked to the same up to the sign. -/
theorem unpack_eq_withSign {b b' : BitVec Format.binary64.numBits}
    (hmantissa : unpackMantissa b = unpackMantissa b')
    (hexponent : unpackExponent b = unpackExponent b') :
    UnpackedFloat.unpack .binary64 b =
      withSign (Sign.ofBitVec (unpackSign b)) (UnpackedFloat.unpack .binary64 b') := by
  unfold UnpackedFloat.unpack
  dsimp only
  by_cases hones : unpackExponent b' = -BitVec.ofNat _ 1
  · rw [if_pos (hexponent.trans hones), if_pos hones]
    by_cases hnone : unpackMantissa b' = BitVec.ofNat _ 0
    · rw [if_pos (hmantissa.trans hnone), if_pos hnone]
      rfl
    · rw [if_neg (hmantissa ▸ hnone), if_neg hnone]
      rfl
  · rw [if_neg (hexponent ▸ hones), if_neg hones]
    by_cases hzero : unpackExponent b' = BitVec.ofNat _ 0
    · rw [if_pos (hexponent.trans hzero), if_pos hzero]
      by_cases hnone : unpackMantissa b' = BitVec.ofNat _ 0
      · rw [dif_pos (hmantissa.trans hnone), dif_pos hnone]
        rfl
      · rw [dif_neg (hmantissa ▸ hnone), dif_neg hnone]
        exact finite_eq_finite (by rw [hmantissa]) (by rw [hexponent])
    · rw [if_neg (hexponent ▸ hzero), if_neg hzero]
      exact finite_eq_finite (by rw [hmantissa]) (by rw [hexponent])

theorem code_lt (x : Float) : Binary64.code x < 2 ^ 63 :=
  Nat.mod_lt _ (by decide)

/-- A double is unpacked to what its code is unpacked to, with its sign. -/
theorem unpack_eq (x : Float) : x.toModel.unpack =
    withSign (signOf x) (UnpackedFloat.unpack .binary64 (bitsOf (Binary64.code x))) := by
  have hcode := code_lt x
  have hbits : (bitsOf (Binary64.code x)).toNat = Binary64.code x := toNat_bitsOf (by omega)
  have hnat : (floatBits x).toNat % 2 ^ 63 = Binary64.code x := rfl
  have hmantissa : unpackMantissa (floatBits x) = unpackMantissa (bitsOf (Binary64.code x)) := by
    refine BitVec.eq_of_toNat_eq ?_
    rw [toNat_unpackMantissa, toNat_unpackMantissa, hbits]
    omega
  have hexponent : unpackExponent (floatBits x) = unpackExponent (bitsOf (Binary64.code x)) := by
    refine BitVec.eq_of_toNat_eq ?_
    rw [toNat_unpackExponent, toNat_unpackExponent, hbits]
    omega
  have hsign : Sign.ofBitVec (unpackSign (floatBits x)) = signOf x := by
    rw [ofBitVec_unpackSign, signOf, isSigned]
    simp only [decide_eq_true_eq]
    rfl
  rw [← hsign]
  exact unpack_eq_withSign hmantissa hexponent

/-! ## Finite doubles -/

theorem isFinite_withSign (sign : Sign) (u : UnpackedFloat) :
    (withSign sign u).isFinite = u.isFinite := by
  cases u <;> rfl

theorem unpackedSignificand_withSign (sign : Sign) (u : UnpackedFloat) :
    unpackedSignificand (withSign sign u) = unpackedSignificand u := by
  cases u <;> rfl

/-- From infinity on, codes belong to no finite double. -/
theorem isFinite_unpack_of_infinity_le (h : infinity ≤ code) (h' : code < 2 ^ 63) :
    (UnpackedFloat.unpack .binary64 (bitsOf code)).isFinite = false := by
  have hinf := infinity_eq
  have hones : unpackExponent (bitsOf code) = -BitVec.ofNat _ 1 := by
    refine BitVec.eq_of_toNat_eq ?_
    rw [toNat_unpackExponent, toNat_bitsOf (by omega)]
    simp [Format.binary64]
    omega
  unfold UnpackedFloat.unpack
  dsimp only
  rw [if_pos hones]
  split <;> rfl

theorem IsUnpacked.isFinite_eq (h : IsUnpacked code u) :
    u.isFinite = decide (code < Binary64.infinity) := by
  have hinf := infinity_eq
  refine Eq.symm ?_
  cases h with
  | infinity => exact decide_eq_false (Nat.lt_irrefl _)
  | zero => exact decide_eq_true (by decide)
  | finite => exact decide_eq_true (by omega)

theorem isFinite_iff : x.isFinite = true ↔ Binary64.code x < infinity := by
  have hfinite : x.isFinite =
      (UnpackedFloat.unpack .binary64 (bitsOf (Binary64.code x))).isFinite := by
    rw [← isFinite_withSign (signOf x), ← unpack_eq]
    rfl
  rw [hfinite]
  rcases Nat.lt_or_ge infinity (Binary64.code x) with hgt | hle
  · rw [isFinite_unpack_of_infinity_le (Nat.le_of_lt hgt) (code_lt x)]
    exact iff_of_false Bool.false_ne_true (Nat.not_lt.mpr (Nat.le_of_lt hgt))
  · rw [(isUnpacked_unpack hle).isFinite_eq, decide_eq_true_eq]

theorem isFinite_ofCode (h : code ≤ infinity) :
    (ofCode code).isFinite = true ↔ code < infinity := by
  rw [isFinite_iff, code_ofCode h]

/-- The three classes of doubles exclude one another. -/
theorem isFinite_eq (x : Float) : x.isFinite = (!x.isNaN && !x.isInf) := by
  have hclasses : ∀ u : UnpackedFloat, u.isFinite = (!u.isNaN && !u.isInf) := by
    intro u
    cases u <;> rfl
  exact hclasses x.toModel.unpack

theorem isNaN_and_isInf_of_isFinite (h : x.isFinite = true) :
    x.isNaN = false ∧ x.isInf = false := by
  simpa [isFinite_eq] using h

/-! ## Values -/

theorem unitsPerOne_pos : 0 < unitsPerOne := by
  decide +kernel

theorem cast_unitsPerOne_pos : 0 < (unitsPerOne : ℚ) :=
  Nat.cast_pos.mpr unitsPerOne_pos

theorem cast_unitsPerOne : (unitsPerOne : ℚ) = 2 ^ (1074 : ℤ) := by
  simp only [unitsPerOne, Nat.cast_pow, Nat.cast_ofNat]
  rw [← zpow_natCast]
  norm_num only

theorem codeValue_nonneg (code : Nat) : 0 ≤ codeValue code :=
  div_nonneg (Nat.cast_nonneg _) (Nat.cast_nonneg _)

theorem codeValue_zero : codeValue 0 = 0 := by
  have hunits : units 0 = 0 := rfl
  rw [codeValue, hunits, Nat.cast_zero, zero_div]

theorem codeValue_lt_codeValue (h : code < code') : codeValue code < codeValue code' :=
  div_lt_div_of_pos_right (Nat.cast_lt.mpr (units_lt_units h)) cast_unitsPerOne_pos

theorem IsUnpacked.unpackedValue_withSign (h : IsUnpacked code u)
    (hfinite : code < Binary64.infinity) (sign : Sign) :
    unpackedValue (withSign sign u) = signFactor sign * codeValue code := by
  cases h with
  | infinity => exact absurd hfinite (Nat.lt_irrefl _)
  | zero =>
      rw [codeValue_zero, mul_zero]
      rfl
  | @finite k q hpos hq hk hfull =>
      have hunits : units (k * 2 ^ 52 + q) = q * 2 ^ k := units_of_isParts ⟨by omega, hfull⟩
      have hpow : (2 : ℚ) ^ ((k : ℤ) - 1074) = 2 ^ k / unitsPerOne := by
        rw [zpow_sub₀ two_ne_zero, zpow_natCast, cast_unitsPerOne]
      change signFactor sign * (q * 2 ^ ((k : ℤ) - 1074)) = _
      rw [codeValue, hunits, hpow]
      push_cast
      ring

/-- The value of a finite double is that of its code, with its sign. -/
theorem value_eq (h : x.isFinite = true) :
    value x = signFactor (signOf x) * codeValue (Binary64.code x) := by
  have hcode := isFinite_iff.mp h
  rw [value, unpack_eq]
  exact (isUnpacked_unpack (Nat.le_of_lt hcode)).unpackedValue_withSign hcode _

theorem value_eq_or_neg (h : x.isFinite = true) :
    value x = codeValue (Binary64.code x) ∨ value x = -codeValue (Binary64.code x) := by
  rw [value_eq h]
  cases signOf x with
  | positive => exact Or.inl (one_mul _)
  | negative => exact Or.inr (neg_one_mul _)

theorem value_ofCode (h : code < infinity) : value (ofCode code) = codeValue code := by
  have hle := Nat.le_of_lt h
  have hsign : signOf (ofCode code) = .positive := by
    rw [signOf, isSigned_ofCode hle]
    rfl
  rw [value_eq ((isFinite_ofCode hle).mpr h), hsign, code_ofCode hle, signFactor, one_mul]

theorem IsUnpacked.unpackedSignificand_mod_two (h : IsUnpacked code u) :
    unpackedSignificand u % 2 = code % 2 := by
  cases h with
  | infinity => decide
  | zero => rfl
  | @finite k q =>
      change q % 2 = _
      omega

/-- The significand of a finite double is even exactly when its code is. -/
theorem significand_mod_two (h : x.isFinite = true) :
    significand x % 2 = Binary64.code x % 2 := by
  rw [significand, unpack_eq, unpackedSignificand_withSign]
  exact (isUnpacked_unpack (Nat.le_of_lt (isFinite_iff.mp h))).unpackedSignificand_mod_two

end LineCalculator.Binary64
