import LineCalculator.Proofs.Settings.Layers

/-!
# How loading fails

Settings that are not good are rejected with an error.  Other failures escape: they come from what
lies at the path, from a file that cannot be read, from a section that is not a table, from an
infinite number where an integer is wanted, and from a value that has to be shown in a message or a
text and holds an integer that is too long or too many values inside one another.  The environment
gives texts only, and never makes a failure escape.
-/

namespace LineCalculator

open Settings

/-- A result is a failure, and not an error that is reported. -/
def EscapesWith {α : Type} (x : Except LoadFailure α) (failure : LoadFailure) : Prop :=
  x = .error failure ∧ ∀ e, failure ≠ .rejected e

/-- What escapes where an integer is wanted.  An integer itself is never written. -/
inductive EscapesAsInteger [Limits] : Toml.Value → LoadFailure → Prop
  | infinite {x : Float} (hnan : x.isNaN = false) (hinf : x.isInf = true) :
      EscapesAsInteger (.real x) .infiniteInteger
  | notShown {value : Toml.Value} {obstacle : Toml.Obstacle} (hvalue : ∀ n, value ≠ .integer n)
      (hobstacle : value.obstacle? Limits.shownLevels = some obstacle) :
      EscapesAsInteger value (.ofObstacle obstacle)

/-- What escapes where a value is written: as a text, or in the message that it is no flag. -/
inductive EscapesWritten [Limits] : Toml.Value → LoadFailure → Prop
  | notShown {value : Toml.Value} {obstacle : Toml.Obstacle}
      (hobstacle : value.obstacle? Limits.shownLevels = some obstacle) :
      EscapesWritten value (.ofObstacle obstacle)

/-- An entry of a table escapes. -/
def EntryEscapes (table : Toml.Table) (name : String)
    (escapes : Toml.Value → LoadFailure → Prop) (failure : LoadFailure) : Prop :=
  ∃ value, table.lookup name = some value ∧ escapes value failure

/-- An entry of a table escapes, and the entries that are looked at before it can be converted. -/
inductive TableEscapes [Limits] (table : Toml.Table) (failure : LoadFailure) : Prop
  | precision (hentry : EntryEscapes table "precision" EscapesAsInteger failure)
  | strict (hprecision : Converts table "precision" (integerOf "precision"))
      (hentry : EntryEscapes table "strict" EscapesWritten failure)
  | maxLineLength (hprecision : Converts table "precision" (integerOf "precision"))
      (hstrict : Converts table "strict" (flagOf "strict"))
      (hentry : EntryEscapes table "max_line_length" EscapesAsInteger failure)
  | prompt (hprecision : Converts table "precision" (integerOf "precision"))
      (hstrict : Converts table "strict" (flagOf "strict"))
      (hlength : Converts table "max_line_length" (integerOf "max_line_length"))
      (hentry : EntryEscapes table "prompt" EscapesWritten failure)
  | logLevel (hprecision : Converts table "precision" (integerOf "precision"))
      (hstrict : Converts table "strict" (flagOf "strict"))
      (hlength : Converts table "max_line_length" (integerOf "max_line_length"))
      (hprompt : Converts table "prompt" textOf)
      (hentry : EntryEscapes table "log_level" EscapesWritten failure)

/-- What lies at a path makes a failure escape. -/
inductive ContentEscapes [Limits] : Content → LoadFailure → Prop
  | folder : ContentEscapes .folder .isFolder
  | unreadable : ContentEscapes .unreadable .unreadable
  | tooLong : ContentEscapes .tooLong .pathTooLong
  | tooManyDigits {text : String}
      (hread : Toml.read (Text.plainLines text.toList) = .error .tooManyDigits) :
      ContentEscapes (.file text) .tooManyDigits
  | tooDeep {text : String}
      (hread : Toml.read (Text.plainLines text.toList) = .error .tooDeep) :
      ContentEscapes (.file text) .tooDeep
  | sectionNotTable {text : String} {document : Toml.Table}
      (hread : Toml.read (Text.plainLines text.toList) = .ok document)
      (hsection : section? document = none) : ContentEscapes (.file text) .sectionNotTable
  | table {text : String} {table : Toml.Table} {failure : LoadFailure}
      (hholds : HoldsTable text table) (htable : TableEscapes table failure) :
      ContentEscapes (.file text) failure

variable {folder : Folder} {env : Environment} {path : Option String} {table : Toml.Table}
  {value : Toml.Value} {failure : LoadFailure} {s : Settings}

/-! ## Steps of a computation -/

section

variable {α β : Type}

theorem not_escapesWith_ok (a : α) : ¬ EscapesWith (.ok a) failure := by
  rintro ⟨h, -⟩
  cases h

theorem not_escapesWith_mapError (x : Except SettingsError α) :
    ¬ EscapesWith (x.mapError .rejected) failure := by
  rintro ⟨h, hnot⟩
  cases x with
  | ok a => cases h
  | error e => exact hnot e (Except.error.inj h).symm

theorem not_escapesWith_rejected (e : SettingsError) :
    ¬ EscapesWith (.error (.rejected e) : Except LoadFailure α) failure :=
  not_escapesWith_mapError (.error e)

theorem EscapesWith.eq {failure' : LoadFailure}
    (h : EscapesWith (.error failure' : Except LoadFailure α) failure) : failure = failure' :=
  (Except.error.inj h.1).symm

/-- A failure escapes from the first step, or from the second one after the first has succeeded. -/
theorem escapesWith_bind_iff {x : Except LoadFailure α} {f : α → Except LoadFailure β} :
    EscapesWith (x >>= f) failure ↔
      EscapesWith x failure ∨ ∃ a, x = .ok a ∧ EscapesWith (f a) failure := by
  cases x <;> simp [EscapesWith, bind, Except.bind]

end

/-! ## Entries of a table -/

theorem ofObstacle_ne_rejected (obstacle : Toml.Obstacle) (e : SettingsError) :
    LoadFailure.ofObstacle obstacle ≠ .rejected e := by
  cases obstacle <;> exact nofun

theorem EscapesWritten.asInteger [Limits] (h : EscapesWritten value failure)
    (hvalue : ∀ n, value ≠ .integer n) : EscapesAsInteger value failure := by
  obtain ⟨hobstacle⟩ := h
  exact .notShown hvalue hobstacle

theorem escapesWith_written_iff [Limits] {write : Toml.Value → String} :
    EscapesWith (written write value) failure ↔ EscapesWritten value failure := by
  rw [written]
  constructor
  · intro h
    cases hobstacle : value.obstacle? Limits.shownLevels with
    | none =>
        rw [hobstacle] at h
        exact absurd h (not_escapesWith_ok _)
    | some obstacle =>
        rw [hobstacle] at h
        rw [h.eq]
        exact .notShown hobstacle
  · rintro ⟨hobstacle⟩
    rw [hobstacle]
    exact ⟨rfl, ofObstacle_ne_rejected _⟩

theorem escapesWith_textOf_iff [Limits] :
    EscapesWith (textOf value) failure ↔ EscapesWritten value failure :=
  escapesWith_written_iff

/-- A message escapes only if it cannot show the value. -/
theorem escapesWith_message_iff [Limits] {α : Type} {message : String → SettingsError} :
    EscapesWith (do
      let given ← written Toml.Value.spelled value
      throw (.rejected (message given)) : Except LoadFailure α) failure ↔
      EscapesWritten value failure := by
  rw [escapesWith_bind_iff, escapesWith_written_iff]
  refine or_iff_left ?_
  rintro ⟨given, -, h⟩
  exact not_escapesWith_rejected _ h

theorem escapesWith_flagOf_iff [Limits] {name : String} :
    EscapesWith (flagOf name value) failure ↔ EscapesWritten value failure := by
  cases value with
  | boolean b =>
      refine iff_of_false (not_escapesWith_ok b) ?_
      rintro ⟨hobstacle⟩
      simp [Toml.Value.obstacle?] at hobstacle
  | _ => exact escapesWith_message_iff

theorem escapesWith_integerOf_iff [Limits] {name : String} :
    EscapesWith (integerOf name value) failure ↔ EscapesAsInteger value failure := by
  constructor
  · intro h
    cases value with
    | integer n => exact absurd h (not_escapesWith_ok n)
    | real x =>
        unfold integerOf at h
        dsimp only at h
        by_cases hnan : x.isNaN = true
        · rw [if_pos hnan] at h
          exact (escapesWith_message_iff.mp h).asInteger (by simp)
        · rw [if_neg hnan] at h
          by_cases hinf : x.isInf = true
          · rw [if_pos hinf] at h
            rw [h.eq]
            exact .infinite (eq_false_of_ne_true hnan) hinf
          · rw [if_neg hinf] at h
            exact absurd h (not_escapesWith_ok _)
    | text s =>
        rw [integerOf] at h
        cases hinteger : Text.integer? s with
        | some n =>
            rw [hinteger] at h
            exact absurd h (not_escapesWith_ok n)
        | none =>
            rw [hinteger] at h
            exact (escapesWith_message_iff.mp h).asInteger (by simp)
    | _ => exact (escapesWith_message_iff.mp h).asInteger (by simp)
  · intro h
    cases h with
    | @infinite x hnan hinf =>
        unfold integerOf
        dsimp only
        rw [hnan, if_neg Bool.false_ne_true, if_pos hinf]
        exact ⟨rfl, by simp⟩
    | notShown hvalue hobstacle =>
        cases value with
        | integer n => exact absurd rfl (hvalue n)
        | array items | table entries => exact escapesWith_message_iff.mpr ⟨hobstacle⟩
        | _ => simp [Toml.Value.obstacle?] at hobstacle

theorem escapesWith_entry_iff {α : Type} {name : String}
    {convert : Toml.Value → Except LoadFailure α} {default : α}
    {escapes : Toml.Value → LoadFailure → Prop}
    (h : ∀ value, EscapesWith (convert value) failure ↔ escapes value failure) :
    EscapesWith (entry table name convert default) failure ↔
      EntryEscapes table name escapes failure := by
  unfold entry EntryEscapes
  cases table.lookup name with
  | none => simp [not_escapesWith_ok]
  | some value => simp [h]

theorem escapesWith_ofTable_iff [Limits] :
    EscapesWith (ofTable table) failure ↔ TableEscapes table failure := by
  unfold ofTable
  simp only [escapesWith_bind_iff, entry_eq_ok_iff, not_escapesWith_mapError,
    escapesWith_entry_iff fun value => escapesWith_integerOf_iff,
    escapesWith_entry_iff fun value => escapesWith_flagOf_iff,
    escapesWith_entry_iff fun value => escapesWith_textOf_iff]
  constructor
  · rintro (h | ⟨_, ⟨hprecision, -⟩, h | ⟨_, ⟨hstrict, -⟩, h | ⟨_, ⟨hlength, -⟩, h |
      ⟨_, ⟨hprompt, -⟩, h | ⟨_, -, h⟩⟩⟩⟩⟩)
    · exact .precision h
    · exact .strict hprecision h
    · exact .maxLineLength hprecision hstrict h
    · exact .prompt hprecision hstrict hlength h
    · exact .logLevel hprecision hstrict hlength hprompt h
    · exact absurd h id
  · rintro (h | ⟨hprecision, h⟩ | ⟨hprecision, hstrict, h⟩ | ⟨hprecision, hstrict, hlength, h⟩ |
      ⟨hprecision, hstrict, hlength, hprompt, h⟩)
    · exact Or.inl h
    · exact Or.inr ⟨_, ⟨hprecision, rfl⟩, Or.inl h⟩
    · exact Or.inr ⟨_, ⟨hprecision, rfl⟩, Or.inr ⟨_, ⟨hstrict, rfl⟩, Or.inl h⟩⟩
    · exact Or.inr ⟨_, ⟨hprecision, rfl⟩, Or.inr ⟨_, ⟨hstrict, rfl⟩, Or.inr ⟨_, ⟨hlength, rfl⟩,
        Or.inl h⟩⟩⟩
    · exact Or.inr ⟨_, ⟨hprecision, rfl⟩, Or.inr ⟨_, ⟨hstrict, rfl⟩, Or.inr ⟨_, ⟨hlength, rfl⟩,
        Or.inr ⟨_, ⟨hprompt, rfl⟩, Or.inl h⟩⟩⟩⟩

/-! ## Files -/

theorem contentEscapes_of_ofFile [Limits] {given text : String}
    (h : EscapesWith (ofFile given text) failure) : ContentEscapes (.file text) failure := by
  unfold ofFile at h
  cases hread : Toml.read (Text.plainLines text.toList) with
  | error fault =>
      rw [hread] at h
      cases fault with
      | invalid => exact absurd h (not_escapesWith_rejected _)
      | tooManyDigits =>
          rw [EscapesWith.eq h]
          exact .tooManyDigits hread
      | tooDeep =>
          rw [EscapesWith.eq h]
          exact .tooDeep hread
  | ok document =>
      rw [hread] at h
      dsimp only at h
      unfold ofDocument at h
      cases hsection : section? document with
      | none =>
          rw [hsection] at h
          rw [EscapesWith.eq h]
          exact .sectionNotTable hread hsection
      | some table =>
          rw [hsection] at h
          exact .table ⟨document, hread, hsection⟩ (escapesWith_ofTable_iff.mp h)

theorem ContentEscapes.escapesWith [Limits] {content : Content} (h : ContentEscapes content failure)
    (given : String) : ∃ x, ofContent? given content = some x ∧ EscapesWith x failure := by
  cases h with
  | folder => exact ⟨_, rfl, rfl, by simp⟩
  | unreadable => exact ⟨_, rfl, rfl, by simp⟩
  | tooLong => exact ⟨_, rfl, rfl, by simp⟩
  | tooManyDigits hread =>
      refine ⟨_, rfl, ?_⟩
      rw [ofFile, hread]
      exact ⟨rfl, by simp⟩
  | tooDeep hread =>
      refine ⟨_, rfl, ?_⟩
      rw [ofFile, hread]
      exact ⟨rfl, by simp⟩
  | sectionNotTable hread hsection =>
      refine ⟨_, rfl, ?_⟩
      rw [ofFile, hread]
      dsimp only
      rw [ofDocument, hsection]
      exact ⟨rfl, by simp⟩
  | table hholds htable =>
      refine ⟨_, rfl, ?_⟩
      rw [ofFile_of_holdsTable hholds]
      exact escapesWith_ofTable_iff.mpr htable

/-- What lies at the path makes a failure escape, or nothing does. -/
theorem escapesWith_ofContent?_iff [Limits] {given : String} {content : Content}
    {fallback : Except LoadFailure Settings} (hfallback : ¬ EscapesWith fallback failure) :
    EscapesWith ((ofContent? given content).getD fallback) failure ↔
      ContentEscapes content failure := by
  constructor
  · intro h
    cases content with
    | missing => exact absurd h hfallback
    | folder =>
        rw [EscapesWith.eq h]
        exact .folder
    | unreadable =>
        rw [EscapesWith.eq h]
        exact .unreadable
    | tooLong =>
        rw [EscapesWith.eq h]
        exact .tooLong
    | file text => exact contentEscapes_of_ofFile h
  · intro h
    obtain ⟨x, hx, hescapes⟩ := h.escapesWith given
    rw [hx]
    exact hescapes

theorem escapesWith_base_iff [Limits] : EscapesWith (base folder path) failure ↔
    ContentEscapes (folder.content (path.getD fileName)) failure := by
  cases path with
  | none => exact escapesWith_ofContent?_iff (not_escapesWith_ok _)
  | some path => exact escapesWith_ofContent?_iff (not_escapesWith_rejected _)

/-! ## The environment -/

/-- A text can always be shown, so a variable that is no integer is reported. -/
theorem not_escapesWith_integer [Limits] {name : String} {given : Option String} {default : Int} :
    ¬ EscapesWith (Environment.integer name given default) failure := by
  cases given with
  | none => exact not_escapesWith_ok default
  | some text =>
      rw [Environment.integer, escapesWith_integerOf_iff]
      intro h
      cases h with
      | notShown _ hobstacle => simp [Toml.Value.obstacle?] at hobstacle

theorem not_escapesWith_override [Limits] : ¬ EscapesWith (env.override s).1 failure := by
  rw [override_fst]
  simp [escapesWith_bind_iff, not_escapesWith_integer, not_escapesWith_mapError]

/-- A failure escapes from loading exactly if what lies at the path makes it escape. -/
theorem escapesWith_load_iff [Limits] : EscapesWith (load folder env path).1 failure ↔
    ContentEscapes (folder.content (path.getD fileName)) failure := by
  rw [← escapesWith_base_iff, load]
  cases base folder path with
  | error failure' => exact Iff.rfl
  | ok s => exact iff_of_false not_escapesWith_override (not_escapesWith_ok s)

end LineCalculator
