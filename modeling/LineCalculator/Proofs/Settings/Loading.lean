import Mathlib.Data.List.Basic
import LineCalculator.Proofs.Settings.Layers

/-!
# What loading gives

Where a table of settings is read, loading is decided by what the table and the environment say.
The values of the table have to be good on their own, because the environment is looked at only
after them; then the integers of the environment have to be read, and the settings that come out
have to keep the rules again.  Each setting comes from the environment, from the file or from the
defaults, whatever the others come from.
-/

namespace LineCalculator

open Settings

/-- Where the value of a setting comes from: the environment, the entry of a table, or else the
default. -/
inductive ComesFrom {α : Type} (given : Option α) (table : Toml.Table) (name : String)
    (convert : Toml.Value → Except LoadFailure α) (default : α) : α → Prop
  | environment {a : α} (hgiven : given = some a) : ComesFrom given table name convert default a
  | file {value : Toml.Value} {a : α} (hgiven : given = none)
      (hvalue : table.lookup name = some value) (hconvert : convert value = .ok a) :
      ComesFrom given table name convert default a
  | absent (hgiven : given = none) (hvalue : table.lookup name = none) :
      ComesFrom given table name convert default default

/-- Every setting comes from where it should, the prompt never from the environment. -/
structure Settings.IsLayered [Limits] (env : Environment) (table : Toml.Table) (s : Settings) :
    Prop where
  precision : ComesFrom (env.precision.bind Text.integer?) table "precision"
    (integerOf "precision") ({} : Settings).precision s.precision
  strict : ComesFrom (env.strict.bind flag?) table "strict" (flagOf "strict")
    ({} : Settings).strict s.strict
  maxLineLength : ComesFrom (env.maxLine.bind Text.integer?) table "max_line_length"
    (integerOf "max_line_length") ({} : Settings).maxLineLength s.maxLineLength
  prompt : ComesFrom none table "prompt" textOf ({} : Settings).prompt s.prompt
  logLevel : ComesFrom (env.logLevel.map fun name => Text.upper (Text.trim name)) table "log_level"
    textOf ({} : Settings).logLevel s.logLevel

variable {folder : Folder} {env : Environment} {path : Option String} {table : Toml.Table}
  {s : Settings}

/-! ## One setting -/

section

variable {α : Type} {given : Option α} {name : String}
  {convert : Toml.Value → Except LoadFailure α} {default a : α}

theorem comesFrom_some_iff {b : α} :
    ComesFrom (some b) table name convert default a ↔ a = b := by
  constructor
  · intro h
    cases h with
    | environment hgiven => exact (Option.some.inj hgiven).symm
    | file hgiven | absent hgiven => cases hgiven
  · rintro rfl
    exact .environment rfl

/-- A setting that the environment does not give is what the entry of the table gives. -/
theorem comesFrom_none_iff :
    ComesFrom none table name convert default a ↔ entry table name convert default = .ok a := by
  unfold entry
  constructor
  · intro h
    cases h with
    | environment hgiven => cases hgiven
    | file _ hvalue hconvert => simp only [hvalue, hconvert]
    | absent _ hvalue => simp only [hvalue]
  · intro h
    cases hvalue : table.lookup name with
    | none =>
        rw [hvalue] at h
        obtain rfl := Except.ok.inj h
        exact .absent rfl hvalue
    | some value =>
        rw [hvalue] at h
        exact .file rfl hvalue h

/-- Over an entry that can be converted, a setting is the value of the environment or else that of
the entry. -/
theorem comesFrom_iff (hconverts : Converts table name convert) :
    ComesFrom given table name convert default a ↔
      a = given.getD ((tableValue? table name convert).getD default) := by
  cases given with
  | none => rw [comesFrom_none_iff, entry_eq_ok_iff, and_iff_right hconverts, Option.getD_none]
  | some b => rw [comesFrom_some_iff, Option.getD_some]

end

/-! ## All settings -/

theorem isLayered_iff [Limits] (hconverts : TableConverts table) :
    s.IsLayered env table ↔ s = env.overrides.over ((tableOverrides table).over {}) := by
  constructor
  · intro h
    obtain ⟨precision, strict, maxLineLength, prompt, logLevel⟩ := s
    obtain rfl := (comesFrom_iff hconverts.precision).mp h.precision
    obtain rfl := (comesFrom_iff hconverts.strict).mp h.strict
    obtain rfl := (comesFrom_iff hconverts.maxLineLength).mp h.maxLineLength
    obtain rfl := (comesFrom_iff hconverts.prompt).mp h.prompt
    obtain rfl := (comesFrom_iff hconverts.logLevel).mp h.logLevel
    rfl
  · rintro rfl
    exact ⟨(comesFrom_iff hconverts.precision).mpr rfl, (comesFrom_iff hconverts.strict).mpr rfl,
      (comesFrom_iff hconverts.maxLineLength).mpr rfl, (comesFrom_iff hconverts.prompt).mpr rfl,
      (comesFrom_iff hconverts.logLevel).mpr rfl⟩

/-- Without an environment, settings come from a table only if all of it can be converted. -/
theorem Settings.IsLayered.tableConverts [Limits] (h : s.IsLayered {} table) :
    TableConverts table where
  precision := (entry_eq_ok_iff.mp (comesFrom_none_iff.mp h.precision)).1
  strict := (entry_eq_ok_iff.mp (comesFrom_none_iff.mp h.strict)).1
  maxLineLength := (entry_eq_ok_iff.mp (comesFrom_none_iff.mp h.maxLineLength)).1
  prompt := (entry_eq_ok_iff.mp (comesFrom_none_iff.mp h.prompt)).1
  logLevel := (entry_eq_ok_iff.mp (comesFrom_none_iff.mp h.logLevel)).1

theorem ofTable_eq_ok_iff_isLayered [Limits] :
    ofTable table = .ok s ↔ s.IsLayered {} table ∧ s.KeepsRules := by
  rw [ofTable_eq_ok_iff]
  constructor
  · rintro ⟨hconverts, hs, hrules⟩
    exact ⟨(isLayered_iff hconverts).mpr hs, hrules⟩
  · rintro ⟨hlayered, hrules⟩
    exact ⟨hlayered.tableConverts, (isLayered_iff hlayered.tableConverts).mp hlayered, hrules⟩

/-! ## Loading -/

theorem base_of_readsTable [Limits] (h : ReadsTable folder path table) :
    base folder path = ofTable table := by
  cases h with
  | absent hcontent =>
      -- without a file the table is empty, which gives the defaults
      rw [base, hcontent]
      rfl
  | file hcontent hholds =>
      cases path with
      | none =>
          rw [Option.getD_none] at hcontent
          rw [base, hcontent]
          exact ofFile_of_holdsTable hholds _
      | some path =>
          rw [Option.getD_some] at hcontent
          rw [base, hcontent]
          exact ofFile_of_holdsTable hholds _

theorem load_eq_ok_iff [Limits] (h : ReadsTable folder path table) :
    (load folder env path).1 = .ok s ↔
    (∃ s₀, ofTable table = .ok s₀) ∧ (ReadsInteger env.precision ∧ ReadsInteger env.maxLine) ∧
      s.IsLayered env table ∧ s.KeepsRules := by
  rw [load, base_of_readsTable h]
  cases htable : ofTable table with
  | error failure => simp [Environment.apply]
  | ok s₀ =>
      obtain ⟨hconverts, rfl, -⟩ := ofTable_eq_ok_iff.mp htable
      rw [isLayered_iff hconverts, ← override_eq_ok_iff]
      simp [Environment.apply]

/-- Where a table is read, settings are loaded exactly if the table gives settings that keep the
rules without the environment, the variables for integers are read, and the settings with the
environment keep the rules.  The settings that are loaded are these. -/
theorem load_of_readsTable [Limits] (h : ReadsTable folder path table) (env : Environment) :
    ((∃ s, (load folder env path).1 = .ok s) ↔
      (∃ s : Settings, s.IsLayered {} table ∧ s.KeepsRules) ∧
        (ReadsInteger env.precision ∧ ReadsInteger env.maxLine) ∧
        ∃ s : Settings, s.IsLayered env table ∧ s.KeepsRules) ∧
    ∀ s, (load folder env path).1 = .ok s → s.IsLayered env table ∧ s.KeepsRules := by
  refine ⟨?_, fun s hs => ((load_eq_ok_iff h).mp hs).2.2⟩
  simp only [load_eq_ok_iff h, ofTable_eq_ok_iff_isLayered]
  constructor
  · rintro ⟨s, htable, hreads, hs⟩
    exact ⟨htable, hreads, s, hs⟩
  · rintro ⟨htable, hreads, s, hs⟩
    exact ⟨s, htable, hreads, hs⟩

/-- A folder with a file of settings of several kinds. -/
def mixedFolder : Folder :=
  .ofFiles "/" [("calcula.toml",
    "[calcula]\nprecision = 4.9\nstrict = true\nmax_line_length = \"80\"\nprompt = 1979-05-27\n")]

/-- An environment with a flag that is not recognised. -/
def mixedEnvironment : Environment where
  precision := some " 5 "
  strict := some "perhaps"
  logLevel := some " debug "

theorem load_mixedFolder : (load mixedFolder mixedEnvironment none).1 =
    .ok ⟨5, true, 80, "1979-05-27", "DEBUG"⟩ := by
  decide +kernel

/-- The places and the level come from the environment, all else from the file. -/
theorem load_of_readsTable_mixed : ∃ table, ReadsTable mixedFolder none table ∧
    (∃ s : Settings, s.IsLayered {} table ∧ s.KeepsRules) ∧
    (ReadsInteger (some " 5 ") ∧ ReadsInteger none) ∧
    IsLayered mixedEnvironment table ⟨5, true, 80, "1979-05-27", "DEBUG"⟩ ∧
    KeepsRules ⟨5, true, 80, "1979-05-27", "DEBUG"⟩ := by
  obtain ⟨⟨table, hreads, -⟩, -⟩ := load_eq_ok load_mixedFolder
  obtain ⟨hloads, hlayered⟩ := load_of_readsTable hreads mixedEnvironment
  obtain ⟨htable, hintegers, -⟩ := hloads.mp ⟨_, load_mixedFolder⟩
  exact ⟨table, hreads, htable, hintegers, hlayered _ load_mixedFolder⟩

/-- The environment does not mend a value of the file. -/
example : (load (.ofFiles "/" [("calcula.toml", "[calcula]\nprecision = -1\n")])
    { precision := some "5" } none).1 = .error (.rejected (.negativePrecision (-1))) := by
  decide +kernel

end LineCalculator
