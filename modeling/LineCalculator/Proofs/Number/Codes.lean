import LineCalculator.Proofs.Number.Units

/-!
# The doubles of codes

A double without sign is determined by its code: the code of the double of a code is the code again,
and doubles compare as their codes do.  All of it is read off the unpacked form of a double, which
is stated here in terms of the parts of a code.
-/

namespace LineCalculator.Binary64

open Float.Model Float.Model.UnpackedFloat

/-- The unpacked form of the double that has a given code. -/
inductive IsUnpacked : Nat → UnpackedFloat → Prop
  | infinity : IsUnpacked infinity (.infinity .positive)
  | zero : IsUnpacked 0 (.zero .positive)
  | finite {k q : Nat} (hpos : 0 < q) (hq : q < 2 ^ 53) (hk : k < 2046)
      (hfull : k = 0 ∨ 2 ^ 52 ≤ q) :
      IsUnpacked (k * 2 ^ 52 + q) (.finite .positive q (k - 1074) hpos)

theorem IsUnpacked.of_eq {code m m' : Nat} {e e' : Int} {sign sign' : Sign} {hpos : 0 < m}
    {hpos' : 0 < m'} (h : IsUnpacked code (.finite sign m e hpos)) (hsign : sign' = sign)
    (hm : m' = m) (he : e' = e) : IsUnpacked code (.finite sign' m' e' hpos') := by
  subst hsign hm he
  exact h

/-- The bits of a code. -/
def bitsOf (code : Nat) : BitVec Format.binary64.numBits :=
  BitVec.ofNat 64 code

variable {code code' : Nat} {u u' : UnpackedFloat}

theorem infinity_eq : infinity = 2047 * 2 ^ 52 := by
  decide

theorem toNat_bitsOf (h : code < 2 ^ 64) : (bitsOf code).toNat = code :=
  Nat.mod_eq_of_lt h

theorem toNat_packComponents (e : BitVec 11) (m : BitVec 52) :
    (packComponents .binary64 .positive e m).toNat = e.toNat * 2 ^ 52 + m.toNat := by
  simp only [packComponents, Sign.toBitVec]
  rw [BitVec.toNat_append, BitVec.toNat_append, ← Nat.shiftLeft_add_eq_or_of_lt m.isLt]
  simp [Nat.shiftLeft_eq]

theorem unpackSign_packComponents (e : BitVec 11) (m : BitVec 52) :
    unpackSign (packComponents .binary64 .positive e m) = 0#1 := by
  refine BitVec.eq_of_toNat_eq ?_
  have he := e.isLt
  have hm := m.isLt
  unfold unpackSign
  simp [toNat_packComponents, Nat.shiftRight_eq_div_pow]
  omega

theorem bitsOf_eq {e f : Nat} (he : e < 2 ^ 11) (hf : f < 2 ^ 52) :
    bitsOf (e * 2 ^ 52 + f) =
      packComponents .binary64 .positive (BitVec.ofNat 11 e) (BitVec.ofNat 52 f) := by
  refine BitVec.eq_of_toNat_eq ?_
  rw [toNat_packComponents, toNat_bitsOf (by omega), BitVec.toNat_ofNat, BitVec.toNat_ofNat,
    Nat.mod_eq_of_lt he, Nat.mod_eq_of_lt hf]

theorem isUnpacked_normal {e f : Nat} (he : 0 < e) (he' : e < 2047) (hf : f < 2 ^ 52)
    (hpos : 0 < 2 ^ 52 + f) :
    IsUnpacked (e * 2 ^ 52 + f)
      (.finite .positive (2 ^ 52 + f) (e - (1023 + (52 : Nat))) hpos) := by
  obtain ⟨k, rfl⟩ : ∃ k, e = k + 1 := ⟨e - 1, by omega⟩
  have hcode : (k + 1) * 2 ^ 52 + f = k * 2 ^ 52 + (2 ^ 52 + f) := by omega
  have hexponent : ((k + 1 : Nat) : Int) - (1023 + (52 : Nat)) = k - 1074 := by omega
  rw [hcode, hexponent]
  exact .finite hpos (by omega) (by omega) (Or.inr (by omega))

theorem isUnpacked_unpack (h : code ≤ infinity) :
    IsUnpacked code (UnpackedFloat.unpack .binary64 (bitsOf code)) := by
  have hinf := infinity_eq
  obtain ⟨e, f, rfl, he, hf⟩ : ∃ e f, code = e * 2 ^ 52 + f ∧ e < 2 ^ 11 ∧ f < 2 ^ 52 :=
    ⟨code / 2 ^ 52, code % 2 ^ 52, by omega, by omega, by omega⟩
  have hbias : (Format.binary64.exponentBias : Int) = 1023 := rfl
  have heq : ∀ {w : Nat} {b b' : BitVec w} {n n' : Nat}, b = b' → b.toNat = n → b'.toNat = n' →
      n = n' := by
    rintro w b b' n n' rfl rfl rfl
    rfl
  -- the parts of the bits are all that unpacking looks at
  obtain ⟨b, hb, hmantissa, hexponent, hsign⟩ : ∃ b, bitsOf (e * 2 ^ 52 + f) = b ∧
      unpackMantissa b = BitVec.ofNat 52 f ∧ unpackExponent b = BitVec.ofNat 11 e ∧
      Sign.ofBitVec (unpackSign b) = .positive := by
    refine ⟨_, bitsOf_eq he hf, unpackMantissa_packComponents, unpackExponent_packComponents, ?_⟩
    rw [unpackSign_packComponents]
    rfl
  rw [hb]
  have hf' : (unpackMantissa b).toNat = f := by
    rw [hmantissa]
    exact Nat.mod_eq_of_lt hf
  have he' : (unpackExponent b).toNat = e := by
    rw [hexponent]
    exact Nat.mod_eq_of_lt he
  unfold UnpackedFloat.unpack
  dsimp only
  by_cases hones : unpackExponent b = -BitVec.ofNat _ 1
  · obtain rfl : e = 2047 := heq hones he' rfl
    obtain rfl : f = 0 := by omega
    rw [if_pos hones, if_pos hmantissa, hsign]
    exact .infinity
  · rw [if_neg hones]
    have hne : e ≠ 2047 := by
      rintro rfl
      exact hones hexponent
    by_cases hzero : unpackExponent b = BitVec.ofNat _ 0
    · rw [if_pos hzero]
      obtain rfl : e = 0 := heq hzero he' rfl
      by_cases hnone : unpackMantissa b = BitVec.ofNat _ 0
      · obtain rfl : f = 0 := heq hnone hf' rfl
        rw [dif_pos hnone, hsign]
        exact .zero
      · rw [dif_neg hnone]
        have hpos : 0 < f := by
          refine Nat.pos_of_ne_zero ?_
          rintro rfl
          exact hnone hmantissa
        have hfinite := IsUnpacked.finite (k := 0) hpos (by omega) (by decide) (Or.inl rfl)
        rw [Nat.zero_mul, Nat.zero_add] at hfinite ⊢
        exact hfinite.of_eq hsign hf' (by rw [he', hbias]; rfl)
    · rw [if_neg hzero]
      have hpos : 0 < e := by
        refine Nat.pos_of_ne_zero ?_
        rintro rfl
        exact hzero hexponent
      have hfull : (1#1 ++ unpackMantissa b).toNat = 2 ^ 52 + f := by
        rw [BitVec.toNat_append, ← Nat.shiftLeft_add_eq_or_of_lt (unpackMantissa b).isLt, hf']
        rfl
      have hfinite := isUnpacked_normal hpos (by omega) hf (by omega)
      exact hfinite.of_eq hsign hfull (by rw [he', hbias])

theorem pack_of_isUnpacked (h : IsUnpacked code u) :
    UnpackedFloat.pack .binary64 u = bitsOf code := by
  have hbias : (Format.binary64.exponentBias : Int) = 1023 := rfl
  have hbits : Format.binary64.mantissaBits = 53 := rfl
  cases h with
  | infinity => decide
  | zero => decide
  | @finite k q hpos hq hk hfull =>
      have hexponent : ((k : Int) - 1074 + 1023 + (52 : Nat)).toNat = k + 1 := by omega
      unfold UnpackedFloat.pack
      dsimp only
      simp only [hbits, hbias, hexponent]
      rw [if_neg (by omega)]
      by_cases hsmall : q < 2 ^ 52
      · have hlog : q.log2 < 52 := (Nat.log2_lt (by omega)).mpr hsmall
        obtain rfl : k = 0 := by omega
        rw [if_neg (by omega), bitsOf_eq (by decide) hsmall]
      · have hlog : q.log2 = 52 := by
          refine (Nat.log2_eq_iff (by omega)).mpr ?_
          omega
        have hcode : k * 2 ^ 52 + q = (k + 1) * 2 ^ 52 + (q - 2 ^ 52) := by omega
        have hmantissa : BitVec.ofNat 52 (q - 2 ^ 52) = BitVec.ofNat 52 q := by
          refine BitVec.eq_of_toNat_eq ?_
          rw [BitVec.toNat_ofNat, BitVec.toNat_ofNat, ← Nat.add_mod_right, Nat.sub_add_cancel]
          omega
        rw [if_pos (by omega), hcode, bitsOf_eq (by omega) (by omega), hmantissa]

theorem IsUnpacked.isNaN_eq (h : IsUnpacked code u) : u.isNaN = false := by
  cases h <;> rfl

theorem IsUnpacked.isInf_eq (h : IsUnpacked code u) :
    u.isInf = decide (code = Binary64.infinity) := by
  have hinf := infinity_eq
  refine Eq.symm ?_
  cases h with
  | infinity => exact decide_eq_true rfl
  | zero => exact decide_eq_false (by decide)
  | finite => exact decide_eq_false (by omega)

theorem compare_exponents (k k' : Nat) :
    compare ((k : Int) - 1074) ((k' : Int) - 1074) = compare k k' := by
  simp only [compare, compareOfLessAndEq, Int.sub_lt_sub_right_iff, Int.sub_left_inj,
    Int.ofNat_lt, Int.ofNat_inj]

/-- Unpacked forms compare as their codes do. -/
theorem IsUnpacked.compare_eq (h : IsUnpacked code u) (h' : IsUnpacked code' u') :
    u.compare u' = some (compare code code') := by
  have hinf := infinity_eq
  have hlt : ∀ {a b : Nat}, a < b → some Ordering.lt = some (compare a b) :=
    fun hab => congrArg some (Nat.compare_eq_lt.mpr hab).symm
  have hgt : ∀ {a b : Nat}, b < a → some Ordering.gt = some (compare a b) :=
    fun hab => congrArg some (Nat.compare_eq_gt.mpr hab).symm
  cases h with
  | infinity =>
      cases h' with
      | infinity => rfl
      | zero => rfl
      | finite => exact hgt (by omega)
  | zero =>
      cases h' with
      | infinity => rfl
      | zero => rfl
      | finite => exact hlt (by omega)
  | @finite k q hpos hq hk hfull =>
      cases h' with
      | infinity => exact hlt (by omega)
      | zero => exact hgt (by omega)
      | @finite k' q' hpos' hq' hk' hfull' =>
          change some ((compare ((k : Int) - 1074) ((k' : Int) - 1074)).then (compare q q')) = _
          rw [compare_exponents]
          rcases Nat.lt_trichotomy k k' with hk | rfl | hk
          · rw [Nat.compare_eq_lt.mpr hk]
            exact hlt (by omega)
          · rw [Nat.compare_eq_eq.mpr rfl]
            rcases Nat.lt_trichotomy q q' with hq | rfl | hq
            · rw [Nat.compare_eq_lt.mpr hq]
              exact hlt (by omega)
            · rw [Nat.compare_eq_eq.mpr rfl, Nat.compare_eq_eq.mpr rfl]
              rfl
            · rw [Nat.compare_eq_gt.mpr hq]
              exact hgt (by omega)
          · rw [Nat.compare_eq_gt.mpr hk]
            exact hgt (by omega)

/-! ## What a code says about its double -/

theorem toBits_ofCode (h : code ≤ infinity) : (ofCode code).toBits = UInt64.ofNat code := by
  have hbits : (ofCode code).toBits = UInt64.ofBitVec
      (UnpackedFloat.pack .binary64 (UnpackedFloat.unpack .binary64 (bitsOf code))) := rfl
  rw [hbits, pack_of_isUnpacked (isUnpacked_unpack h)]
  rfl

theorem toNat_toBits_ofCode (h : code ≤ infinity) : (ofCode code).toBits.toNat = code := by
  have hinf : infinity < UInt64.size := by decide
  rw [toBits_ofCode h]
  exact UInt64.toNat_ofNat_of_lt (by omega)

theorem code_ofCode (h : code ≤ infinity) : Binary64.code (ofCode code) = code := by
  have hinf := infinity_eq
  rw [Binary64.code, toNat_toBits_ofCode h]
  exact Nat.mod_eq_of_lt (by omega)

theorem isSigned_ofCode (h : code ≤ infinity) : isSigned (ofCode code) = false := by
  have hinf := infinity_eq
  rw [isSigned, toNat_toBits_ofCode h]
  exact decide_eq_false (by omega)

theorem isUnpacked_ofCode (h : code ≤ infinity) :
    IsUnpacked code (ofCode code).toModel.unpack := by
  have hunpack : (ofCode code).toModel.unpack =
      UnpackedFloat.unpack .binary64 (ofCode code).toBits.toBitVec := rfl
  rw [hunpack, toBits_ofCode h]
  exact isUnpacked_unpack h

theorem isNaN_ofCode (h : code ≤ infinity) : (ofCode code).isNaN = false :=
  (isUnpacked_ofCode h).isNaN_eq

theorem isInf_ofCode (h : code ≤ infinity) :
    (ofCode code).isInf = decide (code = infinity) :=
  (isUnpacked_ofCode h).isInf_eq

theorem ofCode_le_iff (h : code ≤ infinity) (h' : code' ≤ infinity) :
    ofCode code ≤ ofCode code' ↔ code ≤ code' := by
  have hle : ofCode code ≤ ofCode code' ↔
      decide ((ofCode code).toModel ≤ (ofCode code').toModel) = true := Iff.rfl
  have hmodel : (ofCode code).toModel ≤ (ofCode code').toModel ↔
      ((ofCode code).toModel.unpack.compare (ofCode code').toModel.unpack).any (·.isLE) = true :=
    Iff.rfl
  rw [hle, decide_eq_true_iff, hmodel, (isUnpacked_ofCode h).compare_eq (isUnpacked_ofCode h'),
    Option.any_some]
  exact Nat.isLE_compare

theorem ofCode_lt_iff (h : code ≤ infinity) (h' : code' ≤ infinity) :
    ofCode code < ofCode code' ↔ code < code' := by
  have hlt : ofCode code < ofCode code' ↔
      decide ((ofCode code).toModel < (ofCode code').toModel) = true := Iff.rfl
  have hmodel : (ofCode code).toModel < (ofCode code').toModel ↔
      ((ofCode code).toModel.unpack.compare (ofCode code').toModel.unpack == some .lt) = true :=
    Iff.rfl
  rw [hlt, decide_eq_true_iff, hmodel, (isUnpacked_ofCode h).compare_eq (isUnpacked_ofCode h'),
    beq_iff_eq, Option.some_inj]
  exact Nat.compare_eq_lt

end LineCalculator.Binary64
