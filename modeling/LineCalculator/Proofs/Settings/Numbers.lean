import LineCalculator.Proofs.Number.Value
import LineCalculator.Proofs.Settings.Failures
import LineCalculator.Proofs.Settings.Loading

/-!
# Numbers given for settings

A file may give any number for a setting that is an integer.  The number is cut towards zero before
the rules are looked at, so they are rules for what is left of it: a number between minus one and
zero passes as a number of places, and what is stored is the number that was given only if that is
whole.  Infinities and not-a-number are never stored.
-/

namespace LineCalculator

open Binary64 Settings

/-- A setting that is an integer: the name of its entry in a file, the field and the variable of the
environment that hold it, and the least integer that the rules allow. -/
structure IntegerSetting where
  name : String
  field : Settings → Int
  given : Environment → Option String
  least : Int

/-- The number of places and the line length are the settings that are integers. -/
inductive IsIntegerSetting : IntegerSetting → Prop
  | precision : IsIntegerSetting ⟨"precision", Settings.precision, Environment.precision, 0⟩
  | maxLineLength :
      IsIntegerSetting ⟨"max_line_length", Settings.maxLineLength, Environment.maxLine, 1⟩

/-- A value of a file that is a number, and the number. -/
inductive Toml.Value.IsNumber : Toml.Value → ℚ → Prop
  | integer (n : Int) : IsNumber (.integer n) n
  | real {x : Float} (hx : x.isFinite = true) : IsNumber (.real x) (value x)

/-- A number without its fraction. -/
def towardsZero (q : ℚ) : ℤ :=
  if 0 ≤ q then ⌊q⌋ else ⌈q⌉

variable {folder : Folder} {env : Environment} {path : Option String} {table : Toml.Table}
  {s : Settings} {setting : IntegerSetting} {given : Toml.Value} {q : ℚ} {x : Float}

/-! ## Cutting numbers -/

theorem towardsZero_intCast (n : ℤ) : towardsZero n = n := by
  rw [towardsZero, Int.floor_intCast, Int.ceil_intCast, ite_self]

theorem towardsZero_neg (hq : 0 ≤ q) : towardsZero (-q) = -⌊q⌋ := by
  rw [towardsZero, Int.ceil_neg, ite_eq_right_iff]
  intro hneg
  obtain rfl : q = 0 := le_antisymm (neg_nonneg.mp hneg) hq
  simp only [neg_zero, Int.floor_zero]

/-- A number is not changed exactly if it is whole. -/
theorem cast_towardsZero_eq_iff : (towardsZero q : ℚ) = q ↔ ∃ n : ℤ, q = n := by
  constructor
  · exact fun h => ⟨_, h.symm⟩
  · rintro ⟨n, rfl⟩
    rw [towardsZero_intCast]

/-- The integer part of a finite double is its exact value without the fraction. -/
theorem truncate_eq (hx : x.isFinite = true) : truncate x = towardsZero (value x) := by
  have hfloor : ⌊codeValue (code x)⌋ = ((units (code x) / unitsPerOne : ℕ) : ℤ) := by
    rw [codeValue, Rat.floor_natCast_div_natCast, Int.natCast_div]
  rw [value_eq hx, signOf, truncate]
  by_cases hsigned : isSigned x = true
  · rw [if_pos hsigned, if_pos hsigned, signFactor, neg_one_mul,
      towardsZero_neg (codeValue_nonneg _), hfloor]
  · rw [if_neg hsigned, if_neg hsigned, signFactor, one_mul, towardsZero,
      if_pos (codeValue_nonneg _), hfloor]

theorem integerOf_of_isNumber [Limits] (h : given.IsNumber q) (name : String) :
    integerOf name given = .ok (towardsZero q) := by
  cases h with
  | integer n => rw [integerOf, towardsZero_intCast]
  | @real x hx =>
      obtain ⟨hnan, hinf⟩ := isNaN_and_isInf_of_isFinite hx
      simp only [integerOf, hnan, hinf, Bool.false_eq_true, if_false, truncate_eq hx]

theorem integerOf_ne_ok_of_not_isFinite [Limits] (hx : x.isFinite = false) (name : String)
    (n : Int) :
    integerOf name (.real x) ≠ .ok n := by
  have hclass : x.isNaN = true ∨ x.isInf = true := by
    rw [isFinite_eq, Bool.and_eq_false_iff] at hx
    simpa using hx
  unfold integerOf
  dsimp only
  by_cases hnan : x.isNaN = true
  · rw [if_pos hnan]
    exact notInteger_ne_ok _ _ _ _
  · rw [if_neg hnan, if_pos (hclass.resolve_left hnan)]
    intro h
    cases h

/-! ## Settings that are integers -/

theorem integerOf_of_comesFrom [Limits] {name : String} {default n : Int}
    (h : ComesFrom none table name (integerOf name) default n)
    (hvalue : table.lookup name = some given) : integerOf name given = .ok n := by
  have hentry := comesFrom_none_iff.mp h
  rwa [entry, hvalue] at hentry

/-- Without a variable of the environment the entry of the table gives the setting. -/
theorem Settings.IsLayered.integerOf_eq [Limits] (h : s.IsLayered env table)
    (hsetting : IsIntegerSetting setting) (hgiven : setting.given env = none)
    (hvalue : table.lookup setting.name = some given) :
    integerOf setting.name given = .ok (setting.field s) := by
  cases hsetting with
  | precision =>
      have hcomes := h.precision
      rw [show env.precision = none from hgiven] at hcomes
      exact integerOf_of_comesFrom hcomes hvalue
  | maxLineLength =>
      have hcomes := h.maxLineLength
      rw [show env.maxLine = none from hgiven] at hcomes
      exact integerOf_of_comesFrom hcomes hvalue

theorem Settings.KeepsRules.least_le (h : s.KeepsRules) (hsetting : IsIntegerSetting setting) :
    setting.least ≤ setting.field s := by
  cases hsetting with
  | precision => exact h.precision_nonneg
  | maxLineLength => exact h.maxLineLength_pos

/-- A table gives settings only if what is left of each number keeps the rules. -/
theorem least_le_of_ofTable [Limits] (h : ofTable table = .ok s)
    (hsetting : IsIntegerSetting setting)
    (hvalue : table.lookup setting.name = some given) :
    ∃ n, integerOf setting.name given = .ok n ∧ setting.least ≤ n := by
  obtain ⟨hlayered, hrules⟩ := ofTable_eq_ok_iff_isLayered.mp h
  have hgiven : setting.given {} = none := by cases hsetting <;> rfl
  exact ⟨_, hlayered.integerOf_eq hsetting hgiven hvalue, hrules.least_le hsetting⟩

/-! ## Loading -/

/-- A number that a file gives for an integer passes if what is left of it without its fraction is
allowed, whatever the environment gives.  If the environment gives nothing, that is what is stored,
which is the number itself exactly if it is whole.  Other doubles never pass.  What does not pass is
reported, unless something in the file makes another failure escape. -/
theorem load_cuts_numbers [Limits] (h : ReadsTable folder path table) (env : Environment)
    (hsetting : IsIntegerSetting setting) (hvalue : table.lookup setting.name = some given) :
    (∀ s, (load folder env path).1 = .ok s →
      (∀ x, given = .real x → x.isFinite = true) ∧
      ∀ q, given.IsNumber q → setting.least ≤ towardsZero q ∧
        (setting.given env = none → setting.field s = towardsZero q ∧
          ((setting.field s : ℚ) = q ↔ ∃ n : ℤ, q = n))) ∧
    ∀ failure, (load folder env path).1 = .error failure →
      (∃ e, failure = .rejected e) ∨
        ContentEscapes (folder.content (path.getD fileName)) failure := by
  constructor
  · intro s hs
    obtain ⟨⟨s₀, hs₀⟩, -, hlayered, -⟩ := (load_eq_ok_iff h).mp hs
    obtain ⟨n, hn, hleast⟩ := least_le_of_ofTable hs₀ hsetting hvalue
    constructor
    · rintro x rfl
      by_contra hx
      exact integerOf_ne_ok_of_not_isFinite (Bool.not_eq_true _ ▸ hx) _ n hn
    · intro q hq
      have hcut := integerOf_of_isNumber hq setting.name
      obtain rfl := Except.ok.inj (hn.symm.trans hcut)
      refine ⟨hleast, fun hgiven => ?_⟩
      have hstored := Except.ok.inj ((hlayered.integerOf_eq hsetting hgiven hvalue).symm.trans hcut)
      rw [hstored]
      exact ⟨rfl, cast_towardsZero_eq_iff⟩
  · intro failure hfailure
    by_cases hrejected : ∃ e, failure = .rejected e
    · exact Or.inl hrejected
    · refine Or.inr (escapesWith_load_iff.mp ⟨hfailure, fun e he => hrejected ⟨e, he⟩⟩)

/-- A folder with a negative number of places. -/
def negativeFolder : Folder :=
  .ofFiles "/" [("calcula.toml", "[calcula]\nprecision = -0.5\n")]

/-- The double that a value is, if it is one. -/
def Toml.Value.real? : Toml.Value → Option Float
  | .real x => some x
  | _ => none

theorem Toml.Value.eq_of_real? {given : Toml.Value} (h : given.real? = some x) :
    given = .real x := by
  cases given with
  | real y => exact congrArg _ (Option.some.inj h)
  | _ => cases h

theorem exists_readsTable_negativeFolder : ∃ table, ReadsTable negativeFolder none table ∧
    table.lookup "precision" = some (.real (-0.5)) := by
  have hcontent : negativeFolder.content fileName =
      .file "[calcula]\nprecision = -0.5\n" := by decide +kernel
  have hreal : (match Toml.read (Text.plainLines "[calcula]\nprecision = -0.5\n".toList) with
      | .error _ => none
      | .ok document => ((section? document).bind (List.lookup "precision")).bind
          Toml.Value.real?) = some (-0.5) := by
    decide +kernel
  split at hreal
  · cases hreal
  · rename_i document hread
    obtain ⟨given, hlookup, hgiven⟩ := Option.bind_eq_some_iff.mp hreal
    obtain ⟨table, hsection, hvalue⟩ := Option.bind_eq_some_iff.mp hlookup
    exact ⟨table, .file hcontent ⟨document, hread, hsection⟩, Toml.Value.eq_of_real? hgiven ▸ hvalue⟩

/-- A negative number of places passes as zero. -/
theorem load_cuts_numbers_negative :
    value (-0.5) < 0 ∧ (load negativeFolder {} none).1 = .ok { precision := 0 } ∧
      ∃ table, ReadsTable negativeFolder none table ∧
        table.lookup "precision" = some (.real (-0.5)) ∧ towardsZero (value (-0.5)) = 0 := by
  have hload : (load negativeFolder {} none).1 = .ok { precision := 0 } := by decide +kernel
  have hfinite : (-0.5 : Float).isFinite = true := by decide +kernel
  have hnegative : value (-0.5) < 0 := by
    have hsign : signOf (-0.5) = .negative := if_pos (by decide +kernel)
    have hcode : 0 < code (-0.5) := by decide +kernel
    have hpos := codeValue_lt_codeValue hcode
    rw [codeValue_zero] at hpos
    rw [value_eq hfinite, hsign, signFactor, neg_one_mul]
    exact neg_neg_of_pos hpos
  obtain ⟨table, hreads, hvalue⟩ := exists_readsTable_negativeFolder
  obtain ⟨hpasses, -⟩ := load_cuts_numbers hreads {} .precision hvalue
  obtain ⟨-, hstored⟩ := (hpasses _ hload).2 _ (.real hfinite)
  exact ⟨hnegative, hload, table, hreads, hvalue, (hstored rfl).1.symm⟩

end LineCalculator
