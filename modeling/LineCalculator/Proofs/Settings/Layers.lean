import LineCalculator.Settings.Load

/-!
# Layers of settings

Settings are made in layers: the defaults, the values of a table in a file, the values of variables
of the environment.  Each layer gives values for some of the settings and leaves the others as they
are, so every setting is decided by the last layer that gives a value for it.  Loading succeeds only
with settings that are the layers put over one another and that keep the rules.
-/

namespace LineCalculator

open Settings

/-- Values for some of the settings. -/
structure Overrides where
  precision : Option Int := none
  strict : Option Bool := none
  maxLineLength : Option Int := none
  prompt : Option String := none
  logLevel : Option String := none

/-- The settings, except where another value is given. -/
def Overrides.over (o : Overrides) (s : Settings) : Settings where
  precision := o.precision.getD s.precision
  strict := o.strict.getD s.strict
  maxLineLength := o.maxLineLength.getD s.maxLineLength
  prompt := o.prompt.getD s.prompt
  logLevel := o.logLevel.getD s.logLevel

/-- The value of an entry of a table, if there is one that can be converted. -/
def tableValue? {α : Type} (table : Toml.Table) (name : String)
    (convert : Toml.Value → Except LoadFailure α) : Option α :=
  (table.lookup name).bind fun value => (convert value).toOption

/-- The values that a table of a file gives. -/
def tableOverrides [Limits] (table : Toml.Table) : Overrides where
  precision := tableValue? table "precision" (integerOf "precision")
  strict := tableValue? table "strict" (flagOf "strict")
  maxLineLength := tableValue? table "max_line_length" (integerOf "max_line_length")
  prompt := tableValue? table "prompt" textOf
  logLevel := tableValue? table "log_level" textOf

/-- The values that the environment gives.  A flag that is not recognised gives none. -/
def Environment.overrides (env : Environment) : Overrides where
  precision := env.precision.bind Text.integer?
  strict := env.strict.bind flag?
  maxLineLength := env.maxLine.bind Text.integer?
  logLevel := env.logLevel.map fun name => Text.upper (Text.trim name)

variable {folder : Folder} {env : Environment} {path : Option String} {s s' : Settings}

/-! ## Rules -/

/-- The settings keep all rules. -/
structure Settings.KeepsRules (s : Settings) : Prop where
  precision_nonneg : 0 ≤ s.precision
  maxLineLength_pos : 0 < s.maxLineLength
  level_isSome : s.level?.isSome

theorem check_eq_ok_iff : s.check = .ok s' ↔ s' = s ∧ s.KeepsRules := by
  have hkeeps : s.KeepsRules ↔ 0 ≤ s.precision ∧ 0 < s.maxLineLength ∧ s.level?.isSome :=
    ⟨fun ⟨h₁, h₂, h₃⟩ => ⟨h₁, h₂, h₃⟩, fun ⟨h₁, h₂, h₃⟩ => ⟨h₁, h₂, h₃⟩⟩
  rw [hkeeps, Settings.check]
  by_cases hprecision : s.precision < 0
  · simp [if_pos hprecision, Int.not_le.mpr hprecision]
  · rw [if_neg hprecision]
    by_cases hlength : s.maxLineLength ≤ 0
    · simp [if_pos hlength, Int.not_lt.mpr hlength]
    · rw [if_neg hlength]
      cases hlevel : s.level? with
      | none => simp
      | some severity => simp [Int.not_lt.mp hprecision, Int.not_le.mp hlength, eq_comm]

theorem exists_error_check (h : ¬ s.KeepsRules) : ∃ e, s.check = .error e := by
  cases hcheck : s.check with
  | error e => exact ⟨e, rfl⟩
  | ok s' => exact absurd (check_eq_ok_iff.mp hcheck).2 h

theorem mapError_eq_ok_iff {α ε ε' : Type} {x : Except ε α} {f : ε → ε'} {a : α} :
    x.mapError f = .ok a ↔ x = .ok a := by
  cases x <;> constructor <;> intro h <;> cases h <;> rfl

theorem bind_eq_ok_iff {α β ε : Type} {x : Except ε α} {f : α → Except ε β} {b : β} :
    (x >>= f) = .ok b ↔ ∃ a, x = .ok a ∧ f a = .ok b := by
  cases x <;> simp [bind, Except.bind]

/-! ## The file -/

/-- The entry of a table can be converted, if there is one. -/
def Converts {α : Type} (table : Toml.Table) (name : String)
    (convert : Toml.Value → Except LoadFailure α) : Prop :=
  ∀ value, table.lookup name = some value → ∃ a, convert value = .ok a

/-- All entries of a table that are settings can be converted. -/
structure TableConverts [Limits] (table : Toml.Table) : Prop where
  precision : Converts table "precision" (integerOf "precision")
  strict : Converts table "strict" (flagOf "strict")
  maxLineLength : Converts table "max_line_length" (integerOf "max_line_length")
  prompt : Converts table "prompt" textOf
  logLevel : Converts table "log_level" textOf

theorem entry_eq_ok_iff {α : Type} {table : Toml.Table} {name : String}
    {convert : Toml.Value → Except LoadFailure α} {default a : α} :
    entry table name convert default = .ok a ↔
      Converts table name convert ∧ a = (tableValue? table name convert).getD default := by
  unfold entry Converts tableValue?
  cases hvalue : table.lookup name with
  | none => simp [eq_comm]
  | some value =>
      cases hconvert : convert value with
      | error failure => simp [hconvert]
      | ok a' => simp [hconvert, Except.toOption, eq_comm]

theorem ofTable_eq_ok_iff [Limits] {table : Toml.Table} : ofTable table = .ok s ↔
    TableConverts table ∧ s = (tableOverrides table).over {} ∧ s.KeepsRules := by
  unfold ofTable
  simp only [bind_eq_ok_iff, entry_eq_ok_iff, mapError_eq_ok_iff, check_eq_ok_iff]
  constructor
  · rintro ⟨_, ⟨hprecision, rfl⟩, _, ⟨hstrict, rfl⟩, _, ⟨hlength, rfl⟩, _, ⟨hprompt, rfl⟩, _,
      ⟨hlevel, rfl⟩, rfl, hrules⟩
    exact ⟨⟨hprecision, hstrict, hlength, hprompt, hlevel⟩, rfl, hrules⟩
  · rintro ⟨hconverts, rfl, hrules⟩
    exact ⟨_, ⟨hconverts.precision, rfl⟩, _, ⟨hconverts.strict, rfl⟩, _,
      ⟨hconverts.maxLineLength, rfl⟩, _, ⟨hconverts.prompt, rfl⟩, _, ⟨hconverts.logLevel, rfl⟩,
      rfl, hrules⟩

/-- The text of a file is a document with the table of settings.  A document that does not have it
counts as one with an empty table. -/
def HoldsTable [Limits] (text : String) (table : Toml.Table) : Prop :=
  ∃ document, Toml.read (Text.plainLines text.toList) = .ok document ∧
    Settings.section? document = some table

/-- The table of settings in the named file of a folder, or else in the usual one.  It is empty when
no file is named and the usual one is missing. -/
inductive ReadsTable [Limits] (folder : Folder) : Option String → Toml.Table → Prop
  | file {path : Option String} {text : String} {table : Toml.Table}
      (hcontent : folder.content (path.getD fileName) = .file text)
      (hholds : HoldsTable text table) : ReadsTable folder path table
  | absent (hcontent : folder.content fileName = .missing) : ReadsTable folder none []

theorem HoldsTable.unique [Limits] {text : String} {table table' : Toml.Table}
    (h : HoldsTable text table)
    (h' : HoldsTable text table') : table = table' := by
  obtain ⟨document, hread, hsection⟩ := h
  obtain ⟨document', hread', hsection'⟩ := h'
  obtain rfl := Except.ok.inj (hread.symm.trans hread')
  exact Option.some.inj (hsection.symm.trans hsection')

/-- A file that holds a table gives the settings of the table; the path is for messages. -/
theorem ofFile_of_holdsTable [Limits] {text : String} {table : Toml.Table}
    (h : HoldsTable text table)
    (given : String) : ofFile given text = ofTable table := by
  obtain ⟨document, hread, hsection⟩ := h
  have hdocument : ofDocument document = ofTable table := by rw [ofDocument, hsection]
  rw [ofFile, hread]
  exact hdocument

theorem ReadsTable.unique [Limits] {table table' : Toml.Table} (h : ReadsTable folder path table)
    (h' : ReadsTable folder path table') : table = table' := by
  cases h with
  | file hcontent hholds =>
      cases h' with
      | file hcontent' hholds' =>
          obtain rfl := Content.file.inj (hcontent.symm.trans hcontent')
          exact hholds.unique hholds'
      | absent hcontent' => cases hcontent.symm.trans hcontent'
  | absent hcontent =>
      cases h' with
      | file hcontent' => cases hcontent.symm.trans hcontent'
      | absent => rfl

theorem ofFile_eq_ok [Limits] {path text : String} (h : ofFile path text = .ok s) :
    ∃ table, HoldsTable text table ∧ ofTable table = .ok s := by
  unfold ofFile at h
  split at h
  · cases h
  · cases h
  · cases h
  · rename_i document hread
    unfold ofDocument at h
    split at h
    · cases h
    · rename_i table hsection
      exact ⟨table, ⟨document, hread, hsection⟩, h⟩

theorem ofContent?_eq_ok [Limits] {content : Content} {path : String}
    (h : ofContent? path content = some (.ok s)) :
    ∃ text table, content = .file text ∧ HoldsTable text table ∧ ofTable table = .ok s := by
  cases content with
  | missing | folder | unreadable | tooLong => cases h
  | file text =>
      obtain ⟨table, hholds, htable⟩ := ofFile_eq_ok (Option.some.inj h)
      exact ⟨text, table, rfl, hholds, htable⟩

theorem base_some_eq_ok [Limits] {path : String} (h : base folder (some path) = .ok s) :
    ∃ given, ofContent? given (folder.content path) = some (.ok s) := by
  refine ⟨plainPath path, ?_⟩
  unfold base at h
  cases hcontent : ofContent? (plainPath path) (folder.content path) with
  | none => simp [hcontent] at h
  | some loaded => simpa [hcontent] using h

theorem base_none_eq_ok [Limits] (h : base folder none = .ok s) :
    (∃ given, ofContent? given (folder.content fileName) = some (.ok s)) ∨
      (folder.content fileName = .missing ∧ s = {}) := by
  unfold base at h
  cases hcontent : folder.content fileName with
  | missing =>
      rw [hcontent] at h
      exact Or.inr ⟨rfl, (Except.ok.inj h).symm⟩
  | folder | unreadable | tooLong => simp [hcontent, ofContent?] at h
  | file text =>
      refine Or.inl ⟨folder.location ++ "/" ++ fileName, ?_⟩
      simpa [ofContent?, hcontent] using h

theorem base_eq_ok [Limits] (h : base folder path = .ok s) :
    ∃ table, ReadsTable folder path table ∧ ofTable table = .ok s := by
  have hfound : (∃ given, ofContent? given (folder.content (path.getD fileName)) = some (.ok s)) ∨
      (path = none ∧ folder.content fileName = .missing ∧ s = {}) := by
    cases path with
    | some path => exact Or.inl (base_some_eq_ok h)
    | none => exact (base_none_eq_ok h).imp_right fun h => ⟨rfl, h⟩
  rcases hfound with ⟨given, hfound⟩ | ⟨rfl, hmissing, rfl⟩
  · obtain ⟨text, table, hcontent, hholds, htable⟩ := ofContent?_eq_ok hfound
    exact ⟨table, .file hcontent hholds, htable⟩
  · -- without a file the table is empty, which gives the defaults
    exact ⟨[], .absent hmissing, rfl⟩

/-! ## The environment -/

theorem notInteger_ne_ok [Limits] {α : Type} (name : String) (value : Toml.Value)
    (reason : NotInteger)
    (a : α) : notInteger name value reason ≠ .ok a := by
  intro h
  obtain ⟨given, -, h⟩ := bind_eq_ok_iff.mp h
  cases h

/-- A variable stands for an integer, if it is set. -/
def ReadsInteger (given : Option String) : Prop :=
  ∀ text, given = some text → (Text.integer? text).isSome

theorem integer_eq_ok_iff [Limits] {name : String} {value : Option String} {default n : Int} :
    Environment.integer name value default = .ok n ↔
      ReadsInteger value ∧ n = (value.bind Text.integer?).getD default := by
  cases value with
  | none => simp [Environment.integer, ReadsInteger, @eq_comm _ n]
  | some text =>
      rw [Environment.integer, integerOf]
      cases hinteger : Text.integer? text with
      | some m => simp [hinteger, ReadsInteger, @eq_comm _ n]
      | none => simp [hinteger, ReadsInteger, notInteger_ne_ok]

theorem flag_fst (value : Option String) (kept : Bool) :
    (Environment.flag value kept).1 = (value.bind flag?).getD kept := by
  cases value with
  | none => rfl
  | some word =>
      rw [Environment.flag, Option.bind_some]
      cases flag? word <;> rfl

/-- What overriding gives, without the records. -/
theorem override_fst [Limits] (env : Environment) (s : Settings) : (env.override s).1 = (do
    let precision ← Environment.integer "CALCULA_PRECISION" env.precision s.precision
    let maxLineLength ← Environment.integer "CALCULA_MAX_LINE" env.maxLine s.maxLineLength
    (Settings.check { s with
      precision, maxLineLength, strict := (env.strict.bind flag?).getD s.strict
      logLevel := env.overrides.logLevel.getD s.logLevel }).mapError .rejected) := by
  rw [← flag_fst]
  unfold Environment.override
  cases Environment.integer "CALCULA_PRECISION" env.precision s.precision with
  | error failure => rfl
  | ok precision =>
      cases Environment.integer "CALCULA_MAX_LINE" env.maxLine s.maxLineLength <;> rfl

theorem override_eq_ok_iff [Limits] : (env.override s).1 = .ok s' ↔
    (ReadsInteger env.precision ∧ ReadsInteger env.maxLine) ∧
      s' = env.overrides.over s ∧ s'.KeepsRules := by
  rw [override_fst]
  simp only [bind_eq_ok_iff, integer_eq_ok_iff, mapError_eq_ok_iff, check_eq_ok_iff]
  constructor
  · rintro ⟨_, ⟨hprecision, rfl⟩, _, ⟨hlength, rfl⟩, rfl, hrules⟩
    exact ⟨⟨hprecision, hlength⟩, rfl, hrules⟩
  · rintro ⟨⟨hprecision, hlength⟩, rfl, hrules⟩
    exact ⟨_, ⟨hprecision, rfl⟩, _, ⟨hlength, rfl⟩, rfl, hrules⟩

/-! ## All layers -/

/-- Settings that are loaded are the layers put over one another, and keep the rules. -/
theorem load_eq_ok [Limits] (h : (load folder env path).1 = .ok s) :
    (∃ table, ReadsTable folder path table ∧
      s = env.overrides.over ((tableOverrides table).over {})) ∧ s.KeepsRules := by
  unfold load Environment.apply at h
  cases hbase : base folder path with
  | error failure =>
      rw [hbase] at h
      cases h
  | ok s₀ =>
      rw [hbase] at h
      obtain ⟨-, rfl, hrules⟩ := override_eq_ok_iff.mp h
      obtain ⟨table, hreads, htable⟩ := base_eq_ok hbase
      obtain ⟨-, rfl, -⟩ := ofTable_eq_ok_iff.mp htable
      exact ⟨⟨table, hreads, rfl⟩, hrules⟩

end LineCalculator
