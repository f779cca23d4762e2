import LineCalculator.Expr.Text
import LineCalculator.Proofs.Lexical.Lexeme
import LineCalculator.Proofs.Number.Codes
import LineCalculator.Proofs.Number.Shortest

/-!
# Written numbers

A decimal is written plainly or with an exponent, depending on the place of its point.  A plain
numeral is a lexeme and reads back to the decimal; the letter of an exponent spoils the numeral that
it follows.  Which of the two happens to a double is decided by its size.
-/

namespace LineCalculator.Decimal

open Binary64

variable {layout : Layout} {d : Scaled}

/-- A plain numeral: digits, a point and digits. -/
structure IsPlainNumeral (whole fraction : List Char) : Prop where
  ne_nil : whole ≠ []
  whole_digits : ∀ c ∈ whole, c.isDigit = true
  fraction_digits : ∀ c ∈ fraction, c.isDigit = true

theorem ne_point_of_isDigit {c : Char} (h : c.isDigit = true) : c ≠ '.' := by
  rintro rfl
  exact absurd h (by decide)

theorem point_notMem_of_isDigit {cs : List Char} (h : ∀ c ∈ cs, c.isDigit = true) : '.' ∉ cs :=
  fun hmem => ne_point_of_isDigit (h '.' hmem) rfl

theorem IsPlainNumeral.isLexeme {whole fraction : List Char} (h : IsPlainNumeral whole fraction) :
    IsLexeme .number (whole ++ '.' :: fraction) := by
  obtain ⟨-, hwhole, hfraction⟩ := h
  have hpoint : (whole ++ '.' :: fraction).count '.' = 1 := by
    rw [List.count_append, List.count_cons_self,
      List.count_eq_zero_of_not_mem (point_notMem_of_isDigit hwhole),
      List.count_eq_zero_of_not_mem (point_notMem_of_isDigit hfraction)]
  refine .number (by simp) ?_ (Nat.le_of_eq hpoint)
  intro c hc
  rcases List.mem_append.mp hc with hc | hc
  · exact Or.inl (hwhole c hc)
  · rcases List.mem_cons.mp hc with rfl | hc
    · exact Or.inr rfl
    · exact Or.inl (hfraction c hc)

theorem bne_point_of_digits {cs : List Char} (h : ∀ c ∈ cs, c.isDigit = true) :
    ∀ c ∈ cs, (c != '.') = true := by
  intro c hc
  simpa using ne_point_of_isDigit (h c hc)

theorem wholePart_append_point {whole : List Char} (h : ∀ c ∈ whole, c.isDigit = true)
    (fraction : List Char) : wholePart (whole ++ '.' :: fraction) = whole := by
  rw [wholePart, List.takeWhile_append_of_pos (bne_point_of_digits h)]
  simp

theorem fractionPart_append_point {whole : List Char} (h : ∀ c ∈ whole, c.isDigit = true)
    (fraction : List Char) : fractionPart (whole ++ '.' :: fraction) = fraction := by
  rw [fractionPart, List.dropWhile_append_of_pos (bne_point_of_digits h)]
  simp

theorem IsPlainNumeral.read_eq {whole fraction : List Char} (h : IsPlainNumeral whole fraction) :
    read (whole ++ '.' :: fraction) =
      ofCode (nearest (Nat.ofDigitChars 10 (whole ++ fraction) 0) (10 ^ fraction.length)) := by
  rw [read, wholePart_append_point h.whole_digits, fractionPart_append_point h.whole_digits]

/-- A plain numeral has the value of a decimal. -/
def HasValue (whole fraction : List Char) (d : Scaled) : Prop :=
  Nat.ofDigitChars 10 (whole ++ fraction) 0 * d.den = d.num * 10 ^ fraction.length

theorem IsPlainNumeral.read_of_hasValue {whole fraction : List Char}
    (h : IsPlainNumeral whole fraction) (hvalue : HasValue whole fraction d) :
    read (whole ++ '.' :: fraction) = ofCode d.code := by
  rw [h.read_eq, Scaled.code, nearest_eq_nearest (Nat.pow_pos (by decide)) d.den_pos hvalue]

/-- The place of the point of a decimal in front of its first digit. -/
def Scaled.place (d : Scaled) : Int :=
  (Nat.toDigits 10 d.digits).length + d.exponent

/-- A decimal that a layout writes plainly. -/
def Layout.IsPlain (layout : Layout) (d : Scaled) : Prop :=
  d.digits = 0 ∨ (layout.plainAbove < d.place ∧ d.place ≤ layout.plainUpTo)

theorem isDigit_of_mem_digits {n : Nat} {c : Char} (h : c ∈ Nat.toDigits 10 n) :
    c.isDigit = true :=
  Nat.isDigit_of_mem_toDigits (by decide) (by decide) h

theorem isDigit_of_mem_zeros {n : Nat} {c : Char} (h : c ∈ List.replicate n '0') :
    c.isDigit = true := by
  rw [(List.mem_replicate.mp h).2]
  decide

theorem isDigit_of_mem_leftpad {width n : Nat} {c : Char}
    (h : c ∈ (Nat.toDigits 10 n).leftpad width '0') : c.isDigit = true :=
  (List.mem_append.mp h).elim isDigit_of_mem_zeros isDigit_of_mem_digits

/-- Zeros in front do not change a number. -/
theorem ofDigitChars_leftpad (width n : Nat) :
    Nat.ofDigitChars 10 ((Nat.toDigits 10 n).leftpad width '0') 0 = n := by
  rw [List.leftpad, Nat.ofDigitChars_append, Nat.ofDigitChars_replicate_zero, Nat.mul_zero,
    Nat.ofDigitChars_ten_toDigits]

/-- A text that a layout writes for the decimal as a plain numeral. -/
def WritesPlain (text : List Char) (d : Scaled) : Prop :=
  ∃ whole fraction, text = whole ++ '.' :: fraction ∧ IsPlainNumeral whole fraction ∧
    HasValue whole fraction d

theorem writesPlain_zero (h : d.digits = 0) : WritesPlain ['0', '.', '0'] d := by
  have hdigits : ∀ c ∈ ['0'], c.isDigit = true := fun c hc => isDigit_of_mem_zeros (n := 1) hc
  refine ⟨['0'], ['0'], rfl, ⟨by simp, hdigits, hdigits⟩, ?_⟩
  have hnum : d.num = 0 := by rw [Scaled.num, h, Nat.zero_mul]
  rw [HasValue, hnum, Nat.zero_mul]
  exact Nat.zero_mul _

/-- The point stands in front of all digits. -/
theorem writesPlain_small (h : d.place ≤ 0) :
    WritesPlain ('0' :: '.' :: (List.replicate (-d.place).toNat '0' ++ Nat.toDigits 10 d.digits))
      d := by
  refine ⟨['0'], _, rfl, ⟨by simp, fun c hc => isDigit_of_mem_zeros (n := 1) hc, ?_⟩, ?_⟩
  · intro c hc
    rcases List.mem_append.mp hc with hc | hc
    · exact isDigit_of_mem_zeros hc
    · exact isDigit_of_mem_digits hc
  · have hlength : (-d.place).toNat + (Nat.toDigits 10 d.digits).length = (-d.exponent).toNat := by
      simp only [Scaled.place] at h ⊢
      omega
    have hexponent : d.exponent.toNat = 0 := by
      simp only [Scaled.place] at h
      omega
    rw [HasValue, Scaled.num, Scaled.den, List.length_append, List.length_replicate, hlength,
      hexponent, Nat.ofDigitChars_append, Nat.ofDigitChars_append, Nat.ofDigitChars_replicate_zero]
    simp [Nat.ofDigitChars_cons]

/-- The point stands behind all digits. -/
theorem writesPlain_large (h : (Nat.toDigits 10 d.digits).length ≤ d.place.toNat) :
    WritesPlain (Nat.toDigits 10 d.digits ++
      List.replicate (d.place.toNat - (Nat.toDigits 10 d.digits).length) '0' ++ ['.', '0']) d := by
  have hpos : 0 < (Nat.toDigits 10 d.digits).length := Nat.length_toDigits_pos
  refine ⟨_, ['0'], rfl, ⟨?_, ?_, fun c hc => isDigit_of_mem_zeros (n := 1) hc⟩, ?_⟩
  · exact List.append_ne_nil_of_left_ne_nil Nat.toDigits_ne_nil _
  · intro c hc
    rcases List.mem_append.mp hc with hc | hc
    · exact isDigit_of_mem_digits hc
    · exact isDigit_of_mem_zeros hc
  · have hzeros : d.place.toNat - (Nat.toDigits 10 d.digits).length = d.exponent.toNat := by
      simp only [Scaled.place] at h ⊢
      omega
    have hexponent : (-d.exponent).toNat = 0 := by
      simp only [Scaled.place] at h
      omega
    rw [HasValue, Scaled.num, Scaled.den, hzeros, hexponent, Nat.ofDigitChars_append,
      Nat.ofDigitChars_append, Nat.ofDigitChars_ten_toDigits, Nat.ofDigitChars_replicate_zero]
    simp [Nat.ofDigitChars_cons, Nat.mul_comm]

/-- The point stands between the digits. -/
theorem writesPlain_between (hpos : 0 < d.place)
    (h : d.place.toNat < (Nat.toDigits 10 d.digits).length) :
    WritesPlain ((Nat.toDigits 10 d.digits).take d.place.toNat ++
      '.' :: (Nat.toDigits 10 d.digits).drop d.place.toNat) d := by
  refine ⟨_, _, rfl, ⟨?_, ?_, ?_⟩, ?_⟩
  · intro hnil
    have hlength := congrArg List.length hnil
    rw [List.length_take, List.length_nil] at hlength
    omega
  · exact fun c hc => isDigit_of_mem_digits (List.mem_of_mem_take hc)
  · exact fun c hc => isDigit_of_mem_digits (List.mem_of_mem_drop hc)
  · have hlength : (Nat.toDigits 10 d.digits).length - d.place.toNat = (-d.exponent).toNat := by
      simp only [Scaled.place] at hpos h ⊢
      omega
    have hexponent : d.exponent.toNat = 0 := by
      simp only [Scaled.place] at h
      omega
    rw [HasValue, Scaled.num, Scaled.den, List.take_append_drop, List.length_drop, hlength,
      hexponent, Nat.ofDigitChars_ten_toDigits, Nat.pow_zero, Nat.mul_one]

theorem writesPlain_of_isPlain (h : layout.IsPlain d) : WritesPlain (layout.write d) d := by
  unfold Layout.write
  simp only
  split
  case isTrue hzero => exact writesPlain_zero hzero
  case isFalse hne =>
      split
      case isFalse hexponent => exact absurd (h.resolve_left hne) hexponent
      case isTrue =>
          split
          case isTrue hsmall => exact writesPlain_small hsmall
          case isFalse hpos =>
              split
              case isTrue hlarge => exact writesPlain_large hlarge
              case isFalse hbetween =>
                  exact writesPlain_between (Int.not_le.mp hpos) (Nat.not_le.mp hbetween)

/-- A numeral with an exponent is spoiled by the letter of the exponent. -/
def WritesExponent (text : List Char) : Prop :=
  ∃ head tail, text = head ++ 'e' :: tail ∧ IsFaultAfter head 'e' (.strayInLiteral 'e')

/-- The digits in front of an exponent, with a point behind the first if there are more. -/
def mantissaChars (digits : List Char) : List Char :=
  digits.take 1 ++ if digits.length = 1 then [] else '.' :: digits.drop 1

/-- Without its point a mantissa is nothing but the digits. -/
theorem filter_mantissaChars {digits : List Char} (h : ∀ c ∈ digits, c.isDigit = true) :
    (mantissaChars digits).filter (· != '.') = digits := by
  have hkeep : ∀ cs : List Char, (∀ c ∈ cs, c ∈ digits) → cs.filter (· != '.') = cs :=
    fun cs hsub => List.filter_eq_self.mpr fun c hc => bne_point_of_digits h c (hsub c hc)
  have htake := hkeep (digits.take 1) fun _ => List.mem_of_mem_take
  have hdrop := hkeep (digits.drop 1) fun _ => List.mem_of_mem_drop
  rw [mantissaChars, List.filter_append, htake]
  split
  case isTrue hone =>
      rw [List.filter_nil, List.append_nil, List.take_of_length_le (Nat.le_of_eq hone)]
  case isFalse =>
      rw [List.filter_cons_of_neg (by decide), hdrop, List.take_append_drop]

theorem mem_mantissaChars {digits : List Char} {c : Char}
    (hdigits : ∀ c ∈ digits, c.isDigit = true) (h : c ∈ mantissaChars digits) :
    c.isDigit = true ∨ c = '.' := by
  by_cases hpoint : c = '.'
  · exact Or.inr hpoint
  · refine Or.inl (hdigits c ?_)
    rw [← filter_mantissaChars hdigits, List.mem_filter]
    exact ⟨h, bne_iff_ne.mpr hpoint⟩

theorem isFaultAfter_mantissa {digits : List Char} (hne : digits ≠ [])
    (hdigits : ∀ c ∈ digits, c.isDigit = true) :
    IsFaultAfter (mantissaChars digits) 'e' (.strayInLiteral 'e') := by
  obtain ⟨c, cs, rfl⟩ := List.exists_cons_of_ne_nil hne
  refine .strayInLiteral (by simp [mantissaChars]) (fun x => mem_mantissaChars hdigits) ?_ (by decide)
  obtain ⟨hc, hcs⟩ := List.forall_mem_cons.mp hdigits
  have hcount : cs.count '.' = 0 := List.count_eq_zero_of_not_mem (point_notMem_of_isDigit hcs)
  have hpoint : c ≠ '.' := ne_point_of_isDigit hc
  rw [mantissaChars]
  split
  · simp [hpoint]
  · simp [hpoint, hcount]

theorem write_of_not_isPlain (h : ¬ layout.IsPlain d) :
    layout.write d = mantissaChars (Nat.toDigits 10 d.digits) ++
      'e' :: exponentChars layout.exponentWidth (d.place - 1) := by
  unfold Layout.write
  simp only
  rw [if_neg fun hzero => h (Or.inl hzero)]
  split
  case isTrue hplain => exact absurd (Or.inr hplain) h
  case isFalse => rfl

theorem writesExponent_of_not_isPlain (h : ¬ layout.IsPlain d) :
    WritesExponent (layout.write d) :=
  ⟨_, _, write_of_not_isPlain h,
    isFaultAfter_mantissa Nat.toDigits_ne_nil fun _ hc => isDigit_of_mem_digits hc⟩

/-! ## The size of a decimal and the place of its point -/

theorem pow_le_digits {n : Nat} (hn : n ≠ 0) :
    10 ^ ((Nat.toDigits 10 n).length - 1) ≤ n ∧ n < 10 ^ (Nat.toDigits 10 n).length := by
  have hpos : 0 < (Nat.toDigits 10 n).length := Nat.length_toDigits_pos
  have hle : ∀ k, 0 < k → ((Nat.toDigits 10 n).length ≤ k ↔ n < 10 ^ k) :=
    fun k hk => Nat.length_toDigits_le_iff (by decide) hk
  refine ⟨?_, (hle _ hpos).mp (Nat.le_refl _)⟩
  by_cases hone : (Nat.toDigits 10 n).length = 1
  · rw [hone]
    exact Nat.pos_of_ne_zero hn
  · refine Nat.not_lt.mp fun hlt => ?_
    have hshort := (hle _ (by omega)).mpr hlt
    omega

/-- The point of a decimal stands behind a place exactly when the decimal is not below the power of
ten at that place, which is given as a quotient of two powers. -/
theorem lt_place_iff (hd : d.digits ≠ 0) (m n : Nat) :
    (m : Int) - n < d.place ↔ 10 ^ m * d.den ≤ d.num * 10 ^ n := by
  obtain ⟨hlow, hhigh⟩ := pow_le_digits hd
  have hpos : 0 < (Nat.toDigits 10 d.digits).length := Nat.length_toDigits_pos
  simp only [Scaled.place, Scaled.num, Scaled.den]
  generalize (Nat.toDigits 10 d.digits).length = k at *
  rw [← Nat.pow_add, Nat.mul_assoc, ← Nat.pow_add]
  constructor
  · intro h
    calc 10 ^ (m + (-d.exponent).toNat) ≤ 10 ^ (k - 1 + (d.exponent.toNat + n)) :=
          Nat.pow_le_pow_right (by decide) (by omega)
      _ = 10 ^ (k - 1) * 10 ^ (d.exponent.toNat + n) := Nat.pow_add _ _ _
      _ ≤ d.digits * 10 ^ (d.exponent.toNat + n) := Nat.mul_le_mul_right _ hlow
  · intro h
    refine Int.not_le.mp fun hle => ?_
    have hlt : d.digits * 10 ^ (d.exponent.toNat + n) < 10 ^ (m + (-d.exponent).toNat) := by
      calc d.digits * 10 ^ (d.exponent.toNat + n) < 10 ^ k * 10 ^ (d.exponent.toNat + n) :=
            Nat.mul_lt_mul_of_pos_right hhigh (Nat.pow_pos (by decide))
        _ = 10 ^ (k + (d.exponent.toNat + n)) := (Nat.pow_add _ _ _).symm
        _ ≤ 10 ^ (m + (-d.exponent).toNat) := Nat.pow_le_pow_right (by decide) (by omega)
    omega

end LineCalculator.Decimal
