import LineCalculator.CommandLine.Program
import LineCalculator.Proofs.Calculation.Outcome
import LineCalculator.Proofs.CommandLine.Shown
import LineCalculator.Proofs.Settings.Layers

/-!
# Evaluating on the command line

A command that evaluates an expression ends in one of three ways.  Settings or a level of the log
that break a rule are complained about, and so is an expression without value in strict mode.  In
all other cases one line of text shows the value.  The options of the command line are the last
layer of the settings.
-/

namespace LineCalculator.CommandLine

/-- The values that the options of a command line give.  An empty level gives none. -/
def optionOverrides (level : Option String) (strict : Option Bool) (precision : Option Nat) :
    Overrides where
  precision := precision.map Int.ofNat
  strict := strict
  logLevel := (level.filter fun name => name ≠ "").map Text.upper

/-- A level of the log is chosen on the command line, and it is not known. -/
def IsUnknownLevel (level : Option String) : Prop :=
  ∃ name, level = some name ∧ name ≠ "" ∧ Severity.ofLabel? (Text.upper (Text.upper name)) = none

variable {around : Surroundings} {level file : Option String} {strict : Option Bool}
  {precision : Option Nat} {shown : List Event} {s loaded : Settings} {least : Severity}
  {expression : List Char}

/-! ## Preparation -/

/-- A level that is not given, or given as an empty text, changes nothing. -/
theorem withLevel_of_not_given (h : level = none ∨ level = some "") :
    ¬ IsUnknownLevel level ∧ (optionOverrides level none none).over s = s ∧
      withLevel level s = .ok s := by
  refine ⟨?_, ?_, ?_⟩
  · rintro ⟨name, rfl, hne, -⟩
    simp [hne] at h
  · rcases h with rfl | rfl <;> rfl
  · rcases h with rfl | rfl <;> rfl

theorem withLevel_of_given {name : String} (hne : name ≠ "") :
    (optionOverrides (some name) none none).over s = { s with logLevel := Text.upper name } ∧
      withLevel (some name) s =
        (Settings.check { s with logLevel := Text.upper name }).mapError .rejected := by
  constructor
  · rw [optionOverrides, Option.filter_some_pos (by simpa using hne)]
    rfl
  · unfold withLevel
    split
    · contradiction
    · rename_i h
      exact absurd (Option.some.inj h) hne
    · rename_i h
      rw [Option.some.inj h]

theorem isUnknownLevel_some_iff {name : String} (hne : name ≠ "") :
    IsUnknownLevel (some name) ↔ Severity.ofLabel? (Text.upper (Text.upper name)) = none := by
  constructor
  · rintro ⟨name', h, -, hnone⟩
    rw [Option.some.inj h]
    exact hnone
  · intro hnone
    exact ⟨name, rfl, hne, hnone⟩

/-- Another level breaks a rule exactly if it is not known. -/
theorem keepsRules_logLevel_iff (hrules : s.KeepsRules) (name : String) :
    Settings.KeepsRules { s with logLevel := name } ↔
      Severity.ofLabel? (Text.upper name) ≠ none := by
  rw [← Option.isSome_iff_ne_none]
  constructor
  · intro hkeeps
    exact hkeeps.level_isSome
  · intro hsome
    exact ⟨hrules.precision_nonneg, hrules.maxLineLength_pos, hsome⟩

/-- Settings that keep the rules are refused only for a level that is not known. -/
theorem withLevel_of_keepsRules (hrules : s.KeepsRules) (level : Option String) :
    (IsUnknownLevel level ∧ ∃ e, withLevel level s = .error (.rejected e)) ∨
      (¬ IsUnknownLevel level ∧ ((optionOverrides level none none).over s).KeepsRules ∧
        withLevel level s = .ok ((optionOverrides level none none).over s)) := by
  by_cases hgiven : level = none ∨ level = some ""
  · obtain ⟨hknown, hsame, hok⟩ := withLevel_of_not_given (s := s) hgiven
    rw [hsame]
    exact Or.inr ⟨hknown, hrules, hok⟩
  · obtain ⟨name, rfl⟩ : ∃ name, level = some name :=
      Option.ne_none_iff_exists'.mp fun h => hgiven (Or.inl h)
    have hne : name ≠ "" := by
      rintro rfl
      exact hgiven (Or.inr rfl)
    obtain ⟨hover, hcheck⟩ := withLevel_of_given (s := s) hne
    rw [hover, hcheck, isUnknownLevel_some_iff hne]
    have hrule := keepsRules_logLevel_iff hrules (Text.upper name)
    by_cases hunknown : Severity.ofLabel? (Text.upper (Text.upper name)) = none
    · obtain ⟨e, he⟩ := exists_error_check fun hkeeps => hrule.mp hkeeps hunknown
      exact Or.inl ⟨hunknown, e, by rw [he]; rfl⟩
    · have hkeeps := hrule.mpr hunknown
      exact Or.inr ⟨hunknown, hkeeps, by rw [check_eq_ok_iff.mpr ⟨rfl, hkeeps⟩]; rfl⟩

/-- What is shown of the loading of settings. -/
def loadingEvents [Limits] (around : Surroundings) (file : Option String) : List Event :=
  told .warning (Settings.load around.folder around.environment file).2

theorem prepare_of_rejected [Limits] {e : SettingsError}
    (h : (Settings.load around.folder around.environment file).1 = .error (.rejected e)) :
    prepare around level file =
      (loadingEvents around file ++ [complain e.message], .error (.exit 1)) := by
  simp [prepare, h, loadingEvents, Except.bind]

theorem prepare_of_ok [Limits] (h : (Settings.load around.folder around.environment file).1 = .ok s)
    (level : Option String) :
    (IsUnknownLevel level ∧ ∃ e : SettingsError, prepare around level file =
        (loadingEvents around file ++ [complain e.message], .error (.exit 1))) ∨
      (¬ IsUnknownLevel level ∧ ((optionOverrides level none none).over s).KeepsRules ∧
        prepare around level file = (loadingEvents around file,
          .ok ((optionOverrides level none none).over s,
            ((optionOverrides level none none).over s).level?.getD .warning))) := by
  rcases withLevel_of_keepsRules (load_eq_ok h).2 level with
    ⟨hunknown, e, hrejected⟩ | ⟨hknown, hkeeps, hok⟩
  · exact Or.inl ⟨hunknown, e, by simp [prepare, h, loadingEvents, Except.bind, hrejected]⟩
  · exact Or.inr ⟨hknown, hkeeps, by simp [prepare, h, loadingEvents, Except.bind, hok]⟩

/-- The options are the last layer of the settings. -/
theorem chosen_over (level : Option String) (strict : Option Bool) (precision : Option Nat)
    (s : Settings) : chosen strict precision ((optionOverrides level none none).over s) =
      (optionOverrides level strict precision).over s :=
  rfl

theorem precision_nonneg_chosen (hrules : s.KeepsRules) (strict : Option Bool)
    (precision : Option Nat) : 0 ≤ (chosen strict precision s).precision := by
  cases precision with
  | none => exact hrules.precision_nonneg
  | some places => exact Int.natCast_nonneg places

/-! ## Evaluation -/

theorem source_calculate [Limits] (source : List Char) :
    (calculate source).1.source = stripTerminator source := by
  cases hresult : (evaluateLine (stripTerminator source)).result with
  | ok x =>
      rw [outcome_of_ok hresult]
      rfl
  | error e =>
      rw [outcome_of_error hresult]
      rfl

theorem evaluate_eq [Limits] (s : Settings) (least : Severity) (expression : List Char) :
    evaluate s least expression =
      match report s (calculate expression).1 with
      | .ok (event, isFine) => ⟨told least (calculate expression).2 ++ [event],
          .exit (if isFine then 0 else 1)⟩
      | .error e => ⟨told least (calculate expression).2, .aborted (.places e)⟩ := by
  change Output.after (told least (calculate expression).2)
    (match report s (calculate expression).1 with
      | .ok (event, isFine) => ⟨[event], .exit (if isFine then 0 else 1)⟩
      | .error e => ⟨[], .aborted (.places e)⟩) = _
  cases report s (calculate expression).1 with
  | ok reported => rfl
  | error e => exact congrArg (Output.mk · _) (List.append_nil _)

/-- In strict mode an expression without value is complained about. -/
theorem evaluate_of_not_ok [Limits] (least : Severity) (hstrict : s.strict = true)
    (hnot : (calculate expression).1.ok = false) :
    ∃ message, evaluate s least expression =
      ⟨told least (calculate expression).2 ++ [complain message], .exit 1⟩ := by
  obtain ⟨error, herror⟩ : ∃ error, (calculate expression).1.error = some error := by
    rw [Outcome.ok, Option.isNone_eq_false_iff] at hnot
    exact Option.isSome_iff_exists.mp hnot
  rw [evaluate_eq, report, hstrict, herror]
  exact ⟨_, rfl⟩

/-- Otherwise the value is shown, if it can be printed. -/
theorem evaluate_of_value [Limits] (h : ¬ (s.strict = true ∧ (calculate expression).1.ok = false)) :
    evaluate s least expression =
      match fixedPoint s.precision (calculatedValue expression) with
      | .ok v => ⟨told least (calculate expression).2 ++
          [resultLine (stripTerminator expression) v], .exit 0⟩
      | .error e => ⟨told least (calculate expression).2, .aborted (.places e)⟩ := by
  have hreport : report s (calculate expression).1 =
      (fixedPoint s.precision (calculatedValue expression)).map fun v =>
        (resultLine (stripTerminator expression) v, true) := by
    rw [← source_calculate]
    unfold report
    split
    · rename_i hstrict herror
      exact absurd ⟨hstrict, by rw [Outcome.ok, herror]; rfl⟩ h
    · rfl
  rw [evaluate_eq, hreport]
  cases fixedPoint s.precision (calculatedValue expression) <;> rfl

/-! ## The whole command -/

/-- The settings cannot be used: loading them or the level of the log broke a rule. -/
def IsRefused [Limits] (around : Surroundings) (level file : Option String) : Prop :=
  (∃ e, (Settings.load around.folder around.environment file).1 = .error (.rejected e)) ∨
    IsUnknownLevel level

/-- The settings are loaded, and are the layers put over one another with the options on top. -/
structure IsEffective [Limits] (around : Surroundings) (level file : Option String)
    (strict : Option Bool)
    (precision : Option Nat) (s : Settings) : Prop where
  loads : ∃ loaded, (Settings.load around.folder around.environment file).1 = .ok loaded
  layers : ∃ table, ReadsTable around.folder file table ∧
    s = (optionOverrides level strict precision).over
      (around.environment.overrides.over ((tableOverrides table).over {}))

theorem isEffective_iff [Limits]
    (h : (Settings.load around.folder around.environment file).1 = .ok loaded) :
    IsEffective around level file strict precision s ↔
      s = (optionOverrides level strict precision).over loaded := by
  obtain ⟨⟨table, hreads, hlayers⟩, -⟩ := load_eq_ok h
  rw [hlayers]
  constructor
  · rintro ⟨-, table', hreads', rfl⟩
    rw [hreads.unique hreads']
  · rintro rfl
    exact ⟨⟨loaded, h⟩, table, hreads, rfl⟩

theorem IsEffective.unique [Limits] {s' : Settings}
    (h : IsEffective around level file strict precision s)
    (h' : IsEffective around level file strict precision s') : s = s' := by
  obtain ⟨loaded, hloaded⟩ := h.loads
  exact ((isEffective_iff hloaded).mp h).trans ((isEffective_iff hloaded).mp h').symm

theorem withSettings_of_error [Limits] {body : Settings → Severity → Output} {ending : Ending}
    (h : prepare around level file = (shown, .error ending)) :
    withSettings around level file body = ⟨shown, ending⟩ := by
  rw [withSettings, h]

theorem withSettings_of_ok [Limits] {body : Settings → Severity → Output}
    (h : prepare around level file = (shown, .ok (loaded, least))) :
    withSettings around level file body = (body loaded least).after shown := by
  rw [withSettings, h]

theorem level?_of_isUnknownLevel (h : IsUnknownLevel level) (strict : Option Bool)
    (precision : Option Nat) (s : Settings) :
    ((optionOverrides level strict precision).over s).level? = none := by
  obtain ⟨name, rfl, hne, hnone⟩ := h
  have hover := congrArg Settings.logLevel (withLevel_of_given (s := s) hne).1
  rw [Settings.level?]
  exact (congrArg (fun logLevel => Severity.ofLabel? (Text.upper logLevel)) hover).trans hnone

/-- A command that needs settings works with the effective ones, after what is shown of the loading.
-/
theorem withSettings_of_isEffective [Limits] (body : Settings → Severity → Output)
    (hs : IsEffective around level file strict precision s) (hleast : s.level? = some least) :
    0 ≤ s.precision ∧
      withSettings around level file (fun loaded => body (chosen strict precision loaded)) =
        (body s least).after (loadingEvents around file) := by
  obtain ⟨loaded, hloaded⟩ := hs.loads
  obtain rfl := (isEffective_iff hloaded).mp hs
  rcases prepare_of_ok hloaded level with ⟨hunknown, -⟩ | ⟨-, hkeeps, hprepare⟩
  · rw [level?_of_isUnknownLevel hunknown] at hleast
    cases hleast
  · have hleast' : ((optionOverrides level none none).over loaded).level? = some least := hleast
    rw [hleast', Option.getD_some] at hprepare
    rw [← chosen_over]
    exact ⟨precision_nonneg_chosen hkeeps strict precision, withSettings_of_ok hprepare⟩

/-- Everything that the command which evaluates an expression can show, in order, and how it ends
then: behind the records stands one line, either of complaint or of text. -/
inductive Concludes [Limits] (around : Surroundings) (level file : Option String)
    (strict : Option Bool)
    (precision : Option Nat) (expression : List Char) : Output → Prop
  | refused (hrefused : IsRefused around level file) (message : String) :
      Concludes around level file strict precision expression
        ⟨loadingEvents around file ++ [complain message], .exit 1⟩
  | failed {s : Settings} {least : Severity} (hrefused : ¬ IsRefused around level file)
      (hs : IsEffective around level file strict precision s) (hleast : s.level? = some least)
      (hstrict : s.strict = true) (hnot : (calculate expression).1.ok = false) (message : String) :
      Concludes around level file strict precision expression
        ⟨loadingEvents around file ++
          (told least (calculate expression).2 ++ [complain message]), .exit 1⟩
  | shown {s : Settings} {least : Severity} {v : String} (hrefused : ¬ IsRefused around level file)
      (hs : IsEffective around level file strict precision s) (hleast : s.level? = some least)
      (hfine : ¬ (s.strict = true ∧ (calculate expression).1.ok = false))
      (hv : fixedPoint s.precision (calculatedValue expression) = .ok v) :
      Concludes around level file strict precision expression
        ⟨loadingEvents around file ++ (told least (calculate expression).2 ++
          [resultLine (stripTerminator expression) v]), .exit 0⟩

/-- The command ends in one of these ways if loading does nothing unforeseen and the number of
places is in range. -/
theorem concludes_evaluate [Limits] (expression : String)
    (hload : ∀ failure, (Settings.load around.folder around.environment file).1 = .error failure →
      ∃ e, failure = .rejected e)
    (hplaces : ∀ s, IsEffective around level file strict precision s → s.precision ≤ mostPlaces) :
    Concludes around level file strict precision expression.toList
      (Command.run around level (.evaluate expression strict precision file)) := by
  rw [Command.run]
  cases hloaded : (Settings.load around.folder around.environment file).1 with
  | error failure =>
      obtain ⟨e, rfl⟩ := hload failure hloaded
      rw [withSettings_of_error (prepare_of_rejected hloaded)]
      exact .refused (Or.inl ⟨e, hloaded⟩) e.message
  | ok loaded =>
      -- the level given as an option is looked at after loading, and can still be refused
      rcases prepare_of_ok hloaded level with ⟨hunknown, e, hprepare⟩ | ⟨hknown, hkeeps, -⟩
      · rw [withSettings_of_error hprepare]
        exact .refused (Or.inr hunknown) e.message
      · have hrefused : ¬ IsRefused around level file := by
          rintro (⟨e, he⟩ | hunknown)
          · rw [hloaded] at he
            cases he
          · exact hknown hunknown
        obtain ⟨s, hs⟩ : ∃ s, IsEffective around level file strict precision s :=
          ⟨_, (isEffective_iff hloaded).mpr rfl⟩
        obtain ⟨least, hleast⟩ : ∃ least, s.level? = some least := by
          rw [(isEffective_iff hloaded).mp hs]
          exact Option.isSome_iff_exists.mp hkeeps.level_isSome
        obtain ⟨hnonneg, hwith⟩ := withSettings_of_isEffective
          (fun s least => evaluate s least expression.toList) hs hleast
        rw [hwith]
        by_cases hnot : s.strict = true ∧ (calculate expression.toList).1.ok = false
        · obtain ⟨message, hevaluate⟩ := evaluate_of_not_ok least hnot.1 hnot.2
          rw [hevaluate]
          exact .failed hrefused hs hleast hnot.1 hnot.2 message
        · obtain ⟨v, hv⟩ := exists_fixedPoint hnonneg (hplaces _ hs)
            (calculatedValue expression.toList)
          rw [evaluate_of_value hnot, hv]
          exact .shown hrefused hs hleast hnot hv

/-! ## What is seen of the command -/

/-- The text that shows a value of an expression. -/
def valueText (expression : List Char) (v : String) : String :=
  "result of equation '" ++ String.ofList (stripTerminator expression) ++ "' = " ++ v

/-- The records of the loading and of the calculation that are shown. -/
def shownRecords [Limits] (around : Surroundings) (file : Option String) (least : Severity)
    (expression : List Char) : List Record :=
  (Settings.load around.folder around.environment file).2.filter (fun r => r.reaches .warning) ++
    (calculate expression).2.filter fun r => r.reaches least

theorem escape_notMem_stripTerminator (h : escape ∉ expression) :
    escape ∉ stripTerminator expression := by
  intro hmem
  apply h
  rw [← List.mem_reverse]
  unfold stripTerminator at hmem
  split at hmem
  · rename_i hreverse
    simp_all
  · rename_i hreverse
    simp_all
  · simpa using hmem

theorem Concludes.texts_of_refused [Limits] {output : Output}
    (h : Concludes around level file strict precision expression output)
    (hending : output.ending = .exit 1) : output.texts = "" := by
  cases h with
  | refused => rw [loadingEvents, texts_told, texts_complain]
  | failed => rw [loadingEvents, texts_told, texts_told, texts_complain]
  | shown => cases hending

theorem Concludes.ending_iff [Limits] {output : Output}
    (h : Concludes around level file strict precision expression output) :
    output.ending = .exit 1 ↔ IsRefused around level file ∨
      ∃ s, IsEffective around level file strict precision s ∧ s.strict = true ∧
        (calculate expression).1.ok = false := by
  cases h with
  | refused hrefused => exact ⟨fun _ => Or.inl hrefused, fun _ => rfl⟩
  | failed _ hs _ hstrict hnot => exact ⟨fun _ => Or.inr ⟨_, hs, hstrict, hnot⟩, fun _ => rfl⟩
  | shown hrefused hs _ hfine =>
      constructor
      · intro h
        cases h
      · rintro (h | ⟨s', hs', hstrict, hnot⟩)
        · exact absurd h hrefused
        · rw [hs.unique hs'] at hfine
          exact absurd ⟨hstrict, hnot⟩ hfine

theorem Concludes.shows [Limits] {output : Output}
    (h : Concludes around level file strict precision expression output)
    (hending : output.ending ≠ .exit 1) : output.ending = .exit 0 ∧
      ∃ s v, IsEffective around level file strict precision s ∧
        fixedPoint s.precision (calculatedValue expression) = .ok v ∧
        output.texts = plain (valueText expression v) ++ "\n" ∧
        (escape ∉ expression → output.texts = valueText expression v ++ "\n") := by
  cases h with
  | refused => exact absurd rfl hending
  | failed => exact absurd rfl hending
  | shown _ hs _ _ hv =>
      refine ⟨rfl, _, _, hs, hv, ?_, ?_⟩
      · rw [loadingEvents, texts_told, texts_told]
        exact texts_line _
      · intro hescape
        rw [loadingEvents, texts_told, texts_told,
          resultLine_eq (escape_notMem_stripTerminator hescape) hv]
        exact texts_line _

theorem Concludes.records_eq [Limits] {output : Output}
    (h : Concludes around level file strict precision expression output)
    (hrefused : ¬ IsRefused around level file) :
    ∃ s least, IsEffective around level file strict precision s ∧ s.level? = some least ∧
      output.records = shownRecords around file least expression := by
  cases h with
  | refused h => exact absurd h hrefused
  | failed _ hs hleast =>
      refine ⟨_, _, hs, hleast, ?_⟩
      rw [loadingEvents, records_told, records_told]
      exact congrArg _ (List.append_nil _)
  | shown _ hs hleast =>
      refine ⟨_, _, hs, hleast, ?_⟩
      rw [loadingEvents, records_told, records_told]
      exact congrArg _ (List.append_nil _)

/-- The command fails exactly if settings or the level of the log break a rule, or the expression
has no value and the effective settings are strict; then it shows no text.  Otherwise it shows one
line with the value in the effective number of places, less sequences that steer a terminal.  Of the
records it shows those that the effective level of the log asks for.  Besides these records and the
one line, of text or of complaint, it shows nothing. -/
theorem run_evaluate [Limits] {words : List String} {expression : String}
    (hrequest : request words = some (.run level (.evaluate expression strict precision file)))
    (hload : ∀ failure, (Settings.load around.folder around.environment file).1 = .error failure →
      ∃ e, failure = .rejected e)
    (hplaces : ∀ s, IsEffective around level file strict precision s → s.precision ≤ mostPlaces) :
    ((run around words).ending = .exit 1 ↔ IsRefused around level file ∨
      ∃ s, IsEffective around level file strict precision s ∧ s.strict = true ∧
        (calculate expression.toList).1.ok = false) ∧
    ((run around words).ending = .exit 1 → (run around words).texts = "") ∧
    ((run around words).ending ≠ .exit 1 → (run around words).ending = .exit 0 ∧
      ∃ s v, IsEffective around level file strict precision s ∧
        fixedPoint s.precision (calculatedValue expression.toList) = .ok v ∧
        (run around words).texts = plain (valueText expression.toList v) ++ "\n" ∧
        (escape ∉ expression.toList →
          (run around words).texts = valueText expression.toList v ++ "\n")) ∧
    (¬ IsRefused around level file → ∃ s least,
      IsEffective around level file strict precision s ∧ s.level? = some least ∧
        (run around words).records = shownRecords around file least expression.toList) ∧
    Concludes around level file strict precision expression.toList (run around words) := by
  have hrun : run around words =
      Command.run around level (.evaluate expression strict precision file) := by
    rw [run, hrequest]
  have hconcludes := concludes_evaluate expression hload hplaces
  rw [hrun]
  exact ⟨hconcludes.ending_iff, hconcludes.texts_of_refused, hconcludes.shows,
    hconcludes.records_eq, hconcludes⟩

/-- A folder with a file of settings, and an environment with a flag that is not recognised. -/
def layeredSurroundings : Surroundings where
  folder := .ofFiles "/" [("calcula.toml", "[calcula]\nprecision = 4\nstrict = true\n")]
  environment := { precision := some " 5 ", strict := some "perhaps" }

theorem load_layeredSurroundings :
    (Settings.load layeredSurroundings.folder layeredSurroundings.environment none).1 =
      .ok { precision := 5, strict := true } := by
  decide +kernel

/-- Options win over variables of the environment and over a file. -/
theorem run_evaluate_options :
    request ["--log-level", "debug", "eval", "-p", "2", "--sentinel", "1/3"] =
      some (.run (some "debug") (.evaluate "1/3" (some false) (some 2) none)) ∧
    (∀ failure, (Settings.load layeredSurroundings.folder layeredSurroundings.environment none).1 =
      .error failure → ∃ e, failure = .rejected e) ∧
    (∀ s, IsEffective layeredSurroundings (some "debug") none (some false) (some 2) s →
      s.precision ≤ mostPlaces) ∧
    (run layeredSurroundings
      ["--log-level", "debug", "eval", "-p", "2", "--sentinel", "1/3"]).ending = .exit 0 ∧
    ∃ s v, IsEffective layeredSurroundings (some "debug") none (some false) (some 2) s ∧
      fixedPoint s.precision (calculatedValue "1/3".toList) = .ok v ∧
      (run layeredSurroundings
        ["--log-level", "debug", "eval", "-p", "2", "--sentinel", "1/3"]).texts =
        valueText "1/3".toList v ++ "\n" := by
  have hrequest : request ["--log-level", "debug", "eval", "-p", "2", "--sentinel", "1/3"] =
      some (.run (some "debug") (.evaluate "1/3" (some false) (some 2) none)) := by
    decide +kernel
  have hload : ∀ failure,
      (Settings.load layeredSurroundings.folder layeredSurroundings.environment none).1 =
        .error failure → ∃ e, failure = .rejected e := by
    intro failure h
    rw [load_layeredSurroundings] at h
    cases h
  have hplaces : ∀ s, IsEffective layeredSurroundings (some "debug") none (some false) (some 2) s →
      s.precision ≤ mostPlaces := by
    intro s hs
    rw [(isEffective_iff load_layeredSurroundings).mp hs]
    decide
  have hending : (run layeredSurroundings
      ["--log-level", "debug", "eval", "-p", "2", "--sentinel", "1/3"]).ending ≠ .exit 1 := by
    decide +kernel
  have hescape : escape ∉ "1/3".toList := by decide
  obtain ⟨-, -, hshows, -⟩ := run_evaluate hrequest hload hplaces
  obtain ⟨hfine, s, v, hs, hv, -, htexts⟩ := hshows hending
  exact ⟨hrequest, hload, hplaces, hfine, s, v, hs, hv, htexts hescape⟩

/-! ## Sequences that steer a terminal -/

/-- An escape character of an expression would stand in a line that shows the expression as it is.
-/
theorem escape_mem_valueText (h : escape ∈ stripTerminator expression) (v : String) :
    escape ∈ (valueText expression v ++ "\n").toList := by
  have hmem : ∀ before source between value terminator : String, escape ∈ source.toList →
      escape ∈ (before ++ source ++ between ++ value ++ terminator).toList := by
    intro before source between value terminator hsource
    simp [hsource]
  apply hmem
  rw [String.toList_ofList]
  exact h

/-- An empty folder and an empty environment. -/
def bareSurroundings : Surroundings where
  folder := .ofFiles "/" []

theorem texts_bareSurroundings :
    (run bareSurroundings ["eval", "\x1b[1m1"]).texts = "result of equation '1' = inf\n" := by
  decide +kernel

/-- A sequence that steers a terminal is taken out of the expression that is shown, so no line shows
the expression as it is. -/
theorem texts_ne_valueText :
    request ["eval", "\x1b[1m1"] = some (.run none (.evaluate "\x1b[1m1" none none none)) ∧
    (∃ s, IsEffective bareSurroundings none none none none s ∧ s.precision ≤ mostPlaces) ∧
    (run bareSurroundings ["eval", "\x1b[1m1"]).ending = .exit 0 ∧
    ∀ v, (run bareSurroundings ["eval", "\x1b[1m1"]).texts ≠
      valueText "\x1b[1m1".toList v ++ "\n" := by
  have hload : (Settings.load bareSurroundings.folder bareSurroundings.environment none).1 =
      .ok {} := by
    decide +kernel
  refine ⟨by decide +kernel, ⟨_, (isEffective_iff hload).mpr rfl, by decide⟩, by decide +kernel, ?_⟩
  have hnot : escape ∉ "result of equation '1' = inf\n".toList := by decide
  have hmem : escape ∈ stripTerminator "\x1b[1m1".toList := by decide +kernel
  intro v h
  rw [texts_bareSurroundings] at h
  rw [h] at hnot
  exact hnot (escape_mem_valueText hmem v)

end LineCalculator.CommandLine
