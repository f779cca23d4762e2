import Mathlib.Tactic.LinearCombination
import LineCalculator.Proofs.Number.Nearest
import LineCalculator.Proofs.Number.Value

/-!
# Rounding to the nearest

A number rounds to the nearest double and, between two equally near ones, to the one with the even
significand; from the middle above the largest finite double on it rounds to infinity.  In the same
way it rounds to the nearest multiple of a step.  Both are stated by distances of rational numbers.
They follow from the position of the number between the middles around what it rounds to, which is
all that the rounding of quotients looks at.
-/

namespace LineCalculator.Binary64

/-- The double that a number without sign rounds to. -/
structure IsNearestDouble (q : ℚ) (x : Float) : Prop where
  isSigned_eq : isSigned x = false
  isInf_of_le : 2 ^ 1024 - 2 ^ 970 ≤ q → x.isInf = true
  isFinite_of_lt : q < 2 ^ 1024 - 2 ^ 970 → x.isFinite = true
  nearest : q < 2 ^ 1024 - 2 ^ 970 → ∀ y : Float, y.isFinite = true →
    |value x - q| ≤ |value y - q|
  even_of_tie : q < 2 ^ 1024 - 2 ^ 970 → ∀ y : Float, y.isFinite = true → value y ≠ value x →
    |value y - q| = |value x - q| → Even (significand x)

/-- The multiple of a step that a number rounds to. -/
structure IsNearestMultiple (step q : ℚ) (n : ℤ) : Prop where
  nearest : ∀ m : ℤ, |n * step - q| ≤ |m * step - q|
  even_of_tie : ∀ m : ℤ, m ≠ n → |m * step - q| = |n * step - q| → Even n

/-! ## Distances -/

theorem abs_sub_le_abs_sub {a b q : ℚ} (h : (b - a) * (a + b - 2 * q) ≤ 0) :
    |b - q| ≤ |a - q| := by
  refine sq_le_sq.mp ?_
  have hdiff : (b - q) ^ 2 - (a - q) ^ 2 = (b - a) * (a + b - 2 * q) := by ring
  linarith

theorem add_eq_of_abs_sub_eq {a b q : ℚ} (hne : a ≠ b) (h : |a - q| = |b - q|) :
    a + b = 2 * q := by
  rcases abs_eq_abs.mp h with h | h
  · exact absurd (sub_left_injective h) hne
  · linarith

/-- A number lies between the middles around a point of a grid, and on a middle only if the point
may take ties. -/
structure IsBetweenMiddles {ι : Type} [LinearOrder ι] (grid : ι → ℚ) (q : ℚ) (n : ι)
    (takesTies : Prop) : Prop where
  above : ∀ m, m < n → grid m + grid n < 2 * q ∨ (grid m + grid n = 2 * q ∧ takesTies)
  below : ∀ m, n < m → 2 * q < grid n + grid m ∨ (2 * q = grid n + grid m ∧ takesTies)

section

variable {ι : Type} [LinearOrder ι] {grid : ι → ℚ} {q : ℚ} {n : ι} {takesTies : Prop}

/-- Above the middle below a point a number is above the middles of the point and all lower ones. -/
theorem above_of_le (hgrid : StrictMono grid) {m low : ι} (hm : m ≤ low)
    (h : grid low + grid n < 2 * q ∨ (grid low + grid n = 2 * q ∧ takesTies)) :
    grid m + grid n < 2 * q ∨ (grid m + grid n = 2 * q ∧ takesTies) := by
  rcases hm.lt_or_eq with hlt | rfl
  · have hvalue := hgrid hlt
    have hle := h.elim le_of_lt fun h => h.1.le
    exact Or.inl (by linarith)
  · exact h

theorem below_of_le (hgrid : StrictMono grid) {m high : ι} (hm : high ≤ m)
    (h : 2 * q < grid n + grid high ∨ (2 * q = grid n + grid high ∧ takesTies)) :
    2 * q < grid n + grid m ∨ (2 * q = grid n + grid m ∧ takesTies) := by
  rcases hm.lt_or_eq with hlt | rfl
  · have hvalue := hgrid hlt
    have hle := h.elim le_of_lt fun h => h.1.le
    exact Or.inl (by linarith)
  · exact h

theorem IsBetweenMiddles.nearest (h : IsBetweenMiddles grid q n takesTies) (hgrid : StrictMono grid)
    (m : ι) : |grid n - q| ≤ |grid m - q| := by
  refine abs_sub_le_abs_sub ?_
  rcases lt_trichotomy m n with hlt | rfl | hgt
  · have hle : grid m + grid n ≤ 2 * q := (h.above m hlt).elim le_of_lt fun h => h.1.le
    exact mul_nonpos_of_nonneg_of_nonpos (sub_nonneg.mpr (hgrid hlt).le) (sub_nonpos.mpr hle)
  · rw [sub_self, zero_mul]
  · have hle : 2 * q ≤ grid n + grid m := (h.below m hgt).elim le_of_lt fun h => h.1.le
    exact mul_nonpos_of_nonpos_of_nonneg (sub_nonpos.mpr (hgrid hgt).le) (by linarith)

theorem IsBetweenMiddles.of_tie (h : IsBetweenMiddles grid q n takesTies)
    (hgrid : StrictMono grid) {m : ι} (hne : m ≠ n) (htie : |grid m - q| = |grid n - q|) :
    takesTies := by
  have hmiddle := add_eq_of_abs_sub_eq (hgrid.injective.ne hne) htie
  rcases lt_or_gt_of_ne hne with hlt | hgt
  · exact ((h.above m hlt).resolve_left (by linarith)).2
  · exact ((h.below m hgt).resolve_left (by linarith)).2

end

/-! ## Doubles -/

variable {num den code : Nat}

theorem codeValue_strictMono : StrictMono codeValue :=
  fun _ _ => codeValue_lt_codeValue

theorem natDiv_lt_natDiv_iff {a b c d : Nat} (hb : 0 < b) (hd : 0 < d) :
    (a : ℚ) / b < c / d ↔ a * d < c * b := by
  rw [div_lt_div_iff₀ (Nat.cast_pos.mpr hb) (Nat.cast_pos.mpr hd), ← Nat.cast_mul, ← Nat.cast_mul,
    Nat.cast_lt]

theorem natDiv_eq_natDiv_iff {a b c d : Nat} (hb : 0 < b) (hd : 0 < d) :
    (a : ℚ) / b = c / d ↔ a * d = c * b := by
  have hb' : (b : ℚ) ≠ 0 := Nat.cast_ne_zero.mpr (Nat.pos_iff_ne_zero.mp hb)
  have hd' : (d : ℚ) ≠ 0 := Nat.cast_ne_zero.mpr (Nat.pos_iff_ne_zero.mp hd)
  rw [div_eq_div_iff hb' hd', ← Nat.cast_mul, ← Nat.cast_mul, Nat.cast_inj]

theorem codeValue_add_succ (code : Nat) :
    codeValue code + codeValue (code + 1) = (middle code : ℕ) / (unitsPerOne : ℕ) := by
  rw [codeValue, codeValue, middle, Nat.cast_add, add_div]

theorem two_mul_div (num den : Nat) : 2 * ((num : ℚ) / den) = (2 * num : ℕ) / (den : ℕ) := by
  rw [Nat.cast_mul, Nat.cast_ofNat, mul_div_assoc]

/-- A middle is compared with a quotient by cross products. -/
theorem codeValue_add_succ_lt_iff (hden : 0 < den) :
    codeValue code + codeValue (code + 1) < 2 * ((num : ℚ) / den) ↔
      middle code * den < 2 * (num * unitsPerOne) := by
  rw [codeValue_add_succ, two_mul_div, natDiv_lt_natDiv_iff unitsPerOne_pos hden, Nat.mul_assoc]

theorem lt_codeValue_add_succ_iff (hden : 0 < den) :
    2 * ((num : ℚ) / den) < codeValue code + codeValue (code + 1) ↔
      2 * (num * unitsPerOne) < middle code * den := by
  rw [codeValue_add_succ, two_mul_div, natDiv_lt_natDiv_iff hden unitsPerOne_pos, Nat.mul_assoc]

theorem eq_codeValue_add_succ_iff (hden : 0 < den) :
    2 * ((num : ℚ) / den) = codeValue code + codeValue (code + 1) ↔
      2 * (num * unitsPerOne) = middle code * den := by
  rw [codeValue_add_succ, two_mul_div, natDiv_eq_natDiv_iff hden unitsPerOne_pos, Nat.mul_assoc]

/-- A quotient lies between the middles around the finite code nearest to it. -/
theorem IsNearest.isBetweenMiddles (h : IsNearest num den code) (hden : 0 < den)
    (hfinite : code < infinity) :
    IsBetweenMiddles codeValue (num / den) code (code % 2 = 0) := by
  constructor
  · intro c hc
    obtain ⟨low, rfl⟩ : ∃ low, code = low + 1 := ⟨code - 1, by omega⟩
    have habove := h.above.resolve_left (Nat.succ_ne_zero low)
    rw [Nat.add_sub_cancel, ← codeValue_add_succ_lt_iff hden, @eq_comm ℕ (middle low * den),
      ← eq_codeValue_add_succ_iff hden] at habove
    refine above_of_le codeValue_strictMono (Nat.le_of_lt_succ hc) ?_
    exact habove.imp_right fun h => ⟨h.1.symm, h.2⟩
  · intro c hc
    have hbelow := h.below.resolve_left (Nat.ne_of_lt hfinite)
    rw [← lt_codeValue_add_succ_iff hden, ← eq_codeValue_add_succ_iff hden] at hbelow
    exact below_of_le codeValue_strictMono (Nat.succ_le_of_lt hc) hbelow

theorem middle_below_infinity :
    middle (infinity - 1) + 2 * 2 ^ 970 * unitsPerOne = 2 * 2 ^ 1024 * unitsPerOne := by
  decide +kernel

theorem natDiv_eq_of_add_eq {m p q u : Nat} (hu : 0 < u) (h : m + 2 * p * u = 2 * q * u) :
    (m : ℚ) / u = 2 * (q - p) := by
  have hu' : (u : ℚ) ≠ 0 := Nat.cast_ne_zero.mpr (Nat.pos_iff_ne_zero.mp hu)
  have hcast : (m : ℚ) + 2 * p * u = 2 * q * u := by exact_mod_cast h
  rw [div_eq_iff hu']
  linear_combination hcast

/-- The middle above the largest finite double. -/
theorem overflow_eq : codeValue (infinity - 1) + codeValue (infinity - 1 + 1) =
    2 * (2 ^ 1024 - 2 ^ 970) := by
  rw [codeValue_add_succ, natDiv_eq_of_add_eq unitsPerOne_pos middle_below_infinity]
  simp only [Nat.cast_pow, Nat.cast_ofNat]

/-- A quotient rounds to infinity from the middle above the largest finite double on. -/
theorem IsNearest.eq_infinity_iff (h : IsNearest num den code) (hden : 0 < den) :
    code = infinity ↔ (2 : ℚ) ^ 1024 - 2 ^ 970 ≤ num / den := by
  have hmiddle : (2 : ℚ) ^ 1024 - 2 ^ 970 ≤ num / den ↔
      middle (infinity - 1) * den ≤ 2 * (num * unitsPerOne) := by
    rw [← Nat.not_lt, ← lt_codeValue_add_succ_iff hden, overflow_eq, not_lt,
      mul_le_mul_iff_right₀ two_pos]
  rw [hmiddle]
  constructor
  · rintro rfl
    have habove := h.above
    have hpos : infinity ≠ 0 := by decide
    omega
  · intro hle
    by_contra hne
    have hlast : code ≤ infinity - 1 := by
      have hinf := h.le_infinity
      omega
    have hbelow := h.below.resolve_left hne
    rcases Nat.lt_or_eq_of_le hlast with hlt | rfl
    · have hmiddle := Nat.mul_lt_mul_of_pos_right (middle_lt_middle hlt) hden
      omega
    · have hodd : (infinity - 1) % 2 = 1 := by decide
      omega

/-- Without its sign a double is not farther from a number without sign. -/
theorem abs_codeValue_sub_le {q : ℚ} (hq : 0 ≤ q) {y : Float} (hy : y.isFinite = true) :
    |codeValue (Binary64.code y) - q| ≤ |value y - q| := by
  have hvalue := codeValue_nonneg (Binary64.code y)
  rcases value_eq_or_neg hy with hy | hy
  · rw [hy]
  · rw [hy]
    refine abs_sub_le_abs_sub ?_
    nlinarith

/-- A double that is as near to a number without sign as without its own sign has none that
matters, or the number is zero. -/
theorem value_eq_codeValue_of_abs_eq {q : ℚ} {y : Float} (hy : y.isFinite = true)
    (h : |codeValue (Binary64.code y) - q| = |value y - q|) :
    value y = codeValue (Binary64.code y) ∨ q = 0 := by
  rcases value_eq_or_neg hy with hy | hy
  · exact Or.inl hy
  · rw [hy] at h ⊢
    by_cases hzero : codeValue (Binary64.code y) = 0
    · exact Or.inl (by rw [hzero, neg_zero])
    · have hsum := add_eq_of_abs_sub_eq (fun heq => hzero (by linarith)) h
      exact Or.inr (by linarith)

/-- The double of the code nearest to a quotient is the one that the quotient rounds to. -/
theorem IsNearest.isNearestDouble (h : IsNearest num den code) (hden : 0 < den) :
    IsNearestDouble (num / den) (ofCode code) := by
  have hq : (0 : ℚ) ≤ num / den := div_nonneg (Nat.cast_nonneg _) (Nat.cast_nonneg _)
  have hfinite : (num : ℚ) / den < 2 ^ 1024 - 2 ^ 970 → code < infinity := by
    intro hlt
    refine Nat.lt_of_le_of_ne h.le_infinity fun heq => ?_
    exact absurd ((h.eq_infinity_iff hden).mp heq) (not_le.mpr hlt)
  have hnearest : ∀ hlt : (num : ℚ) / den < 2 ^ 1024 - 2 ^ 970, ∀ y : Float, y.isFinite = true →
      |value (ofCode code) - num / den| ≤ |codeValue (Binary64.code y) - num / den| := by
    intro hlt y hy
    rw [value_ofCode (hfinite hlt)]
    exact (h.isBetweenMiddles hden (hfinite hlt)).nearest codeValue_strictMono _
  refine ⟨isSigned_ofCode h.le_infinity, ?_, ?_, ?_, ?_⟩
  · intro hle
    rw [isInf_ofCode h.le_infinity, decide_eq_true_eq]
    exact (h.eq_infinity_iff hden).mpr hle
  · exact fun hlt => (isFinite_ofCode h.le_infinity).mpr (hfinite hlt)
  · exact fun hlt y hy => (hnearest hlt y hy).trans (abs_codeValue_sub_le hq hy)
  · intro hlt y hy hne htie
    have hbetween := h.isBetweenMiddles hden (hfinite hlt)
    have hunsigned : |codeValue (Binary64.code y) - num / den| = |value y - num / den| :=
      le_antisymm (abs_codeValue_sub_le hq hy) (htie.le.trans (hnearest hlt y hy))
    rw [value_ofCode (hfinite hlt)] at hne htie
    rcases value_eq_codeValue_of_abs_eq hy hunsigned with hvalue | hzero
    · rw [hvalue] at hne htie
      have heven := hbetween.of_tie codeValue_strictMono (fun heq => hne (by rw [heq])) htie
      rw [Nat.even_iff, significand_mod_two ((isFinite_ofCode h.le_infinity).mpr (hfinite hlt)),
        code_ofCode h.le_infinity]
      exact heven
    · -- zero is a double itself, so nothing else is as near
      have hle := hbetween.nearest codeValue_strictMono 0
      rw [hzero, codeValue_zero, sub_zero, sub_zero, abs_zero, abs_nonpos_iff] at hle
      rw [hzero, hle, sub_zero, sub_zero, abs_zero, abs_eq_zero] at htie
      exact absurd (htie.trans hle.symm) hne

theorem isNearestDouble_nearest (num : Nat) (hden : 0 < den) :
    IsNearestDouble (num / den) (ofCode (nearest num den)) :=
  (isNearest_nearest num hden).isNearestDouble hden

/-! ## Multiples -/

theorem roundHalfEven_cases (num : Nat) (hden : 0 < den) :
    (2 * num < (2 * roundHalfEven num den + 1) * den ∨
      (2 * num = (2 * roundHalfEven num den + 1) * den ∧ roundHalfEven num den % 2 = 0)) ∧
    (2 * roundHalfEven num den * den < 2 * num + den ∨
      (2 * roundHalfEven num den * den = 2 * num + den ∧ roundHalfEven num den % 2 = 0)) := by
  have hsplit := Nat.div_add_mod' num den
  have hrest := Nat.mod_lt num hden
  unfold roundHalfEven
  dsimp only
  generalize num / den = quotient at *
  generalize num % den = rest at *
  split
  · rw [Nat.add_mul, Nat.mul_assoc]
    omega
  · rw [Nat.add_mul, Nat.mul_assoc, Nat.add_mul quotient]
    omega

/-- A quotient lies between the middles around the whole number that it is rounded to. -/
theorem isBetweenMiddles_roundHalfEven (num : Nat) (hden : 0 < den) :
    IsBetweenMiddles (fun m : ℤ => (m : ℚ)) (num / den) (roundHalfEven num den)
      (Even (roundHalfEven num den : ℤ)) := by
  obtain ⟨hbelow, habove⟩ := roundHalfEven_cases num hden
  have heven : roundHalfEven num den % 2 = 0 → Even (roundHalfEven num den : ℤ) := by
    intro h
    rw [Int.even_iff]
    omega
  generalize roundHalfEven num den = n at *
  have hden' : (0 : ℚ) < den := Nat.cast_pos.mpr hden
  have hnum : (num : ℚ) = num / den * den := (div_mul_cancel₀ _ hden'.ne').symm
  rw [← @Nat.cast_lt ℚ, ← @Nat.cast_inj ℚ] at hbelow habove
  push_cast at hbelow habove ⊢
  generalize (num : ℚ) / den = q at *
  have hbelow' : 2 * q < 2 * n + 1 ∨ (2 * q = 2 * n + 1 ∧ Even (n : ℤ)) :=
    hbelow.imp (fun h => lt_of_mul_lt_mul_right (by linarith) hden'.le)
      fun h => ⟨mul_right_cancel₀ hden'.ne' (by linarith), heven h.2⟩
  have habove' : 2 * n < 2 * q + 1 ∨ (2 * n = 2 * q + 1 ∧ Even (n : ℤ)) :=
    habove.imp (fun h => lt_of_mul_lt_mul_right (by linarith) hden'.le)
      fun h => ⟨mul_right_cancel₀ hden'.ne' (by linarith), heven h.2⟩
  have hcast : StrictMono fun m : ℤ => (m : ℚ) := Int.cast_strictMono
  constructor
  · intro m hm
    refine above_of_le hcast (Int.le_sub_one_of_lt hm) (habove'.imp (fun h => ?_) fun h => ⟨?_, h.2⟩)
    · push_cast
      linarith
    · push_cast
      linarith [h.1]
  · intro m hm
    refine below_of_le hcast (Int.add_one_le_of_lt hm) (hbelow'.imp (fun h => ?_) fun h => ⟨?_, h.2⟩)
    · push_cast
      linarith
    · push_cast
      linarith [h.1]

/-- A number rounds to the multiple of a step that its quotient by the step rounds to. -/
theorem IsBetweenMiddles.isNearestMultiple {step q : ℚ} {n : ℤ} (hstep : 0 < step)
    (h : IsBetweenMiddles (fun m : ℤ => (m : ℚ)) (q / step) n (Even n)) :
    IsNearestMultiple step q n := by
  have hcast : StrictMono fun m : ℤ => (m : ℚ) := Int.cast_strictMono
  have hscale : ∀ m : ℤ, |m * step - q| = |(m : ℚ) - q / step| * step := by
    intro m
    rw [← abs_of_pos hstep, ← abs_mul, abs_of_pos hstep, sub_mul, div_mul_cancel₀ _ hstep.ne']
  constructor
  · intro m
    rw [hscale, hscale]
    exact mul_le_mul_of_nonneg_right (h.nearest hcast m) hstep.le
  · intro m hne htie
    rw [hscale, hscale] at htie
    exact h.of_tie hcast hne (mul_right_cancel₀ hstep.ne' htie)

theorem IsNearestMultiple.neg {step q : ℚ} {n : ℤ} (h : IsNearestMultiple step q n) :
    IsNearestMultiple step (-q) (-n) := by
  have hsign : ∀ m : ℤ, |m * step - -q| = |(-m : ℤ) * step - q| := by
    intro m
    rw [← abs_neg]
    push_cast
    ring_nf
  constructor
  · intro m
    rw [hsign, hsign, neg_neg]
    exact h.nearest (-m)
  · intro m hne htie
    rw [hsign, hsign, neg_neg] at htie
    exact (h.even_of_tie (-m) (fun heq => hne (by omega)) htie).neg

/-- The multiple that a number rounds to takes the sign of a double as the number does. -/
theorem IsNearestMultiple.exists_signed {step q : ℚ} {n : ℤ} (h : IsNearestMultiple step q n)
    (x : Float) : ∃ m : ℤ, (m : ℚ) = signFactor (signOf x) * n ∧
      IsNearestMultiple step (signFactor (signOf x) * q) m := by
  cases signOf x with
  | positive =>
      rw [signFactor, one_mul, one_mul]
      exact ⟨n, rfl, h⟩
  | negative =>
      rw [signFactor, neg_one_mul, neg_one_mul]
      exact ⟨-n, Int.cast_neg n, h.neg⟩

end LineCalculator.Binary64
