import LineCalculator.Proofs.CommandLine.Evaluation
import LineCalculator.Proofs.Settings.Failures

/-!
# Commands without settings

The commands that calculate need settings.  Where these are rejected, a command complains in one
line and exits with code 1.  A failure that escapes from loading aborts it instead, without a
complaint.
-/

namespace LineCalculator.CommandLine

/-- The file of settings that a command names, if it needs settings. -/
def Command.file? : Command → Option (Option String)
  | evaluate _ _ _ file => some file
  | converse _ file => some file
  | tokens _ | tree _ _ | functions => none

/-- What lies where the settings are looked for. -/
def Surroundings.settingsContent (around : Surroundings) (file : Option String) : Content :=
  around.folder.content (file.getD Settings.fileName)

variable {around : Surroundings} {level file : Option String} {shown : List Event}
  {command : Command} {words : List String} {failure : LoadFailure} {ending : Ending}

/-- Loading succeeds, or an error is reported, or a failure escapes. -/
theorem load_trichotomy [Limits] (around : Surroundings) (file : Option String) :
    (∃ s, (Settings.load around.folder around.environment file).1 = .ok s ∧ s.KeepsRules) ∨
      (∃ e, (Settings.load around.folder around.environment file).1 = .error (.rejected e)) ∨
      ∃ failure, EscapesWith (Settings.load around.folder around.environment file).1 failure := by
  cases hload : (Settings.load around.folder around.environment file).1 with
  | ok s => exact Or.inl ⟨s, rfl, (load_eq_ok hload).2⟩
  | error failure =>
      cases failure with
      | rejected e => exact Or.inr (Or.inl ⟨e, rfl⟩)
      | _ => exact Or.inr (Or.inr ⟨_, rfl, by simp⟩)

theorem prepare_of_escapesWith [Limits]
    (h : EscapesWith (Settings.load around.folder around.environment file).1 failure) :
    prepare around level file =
      (loadingEvents around file, .error (.aborted (.settings failure))) := by
  obtain ⟨hload, hnot⟩ := h
  simp only [prepare, loadingEvents, hload, Except.bind]

/-- A command that needs settings ends where they cannot be prepared. -/
theorem run_of_prepare [Limits] (hrequest : request words = some (.run level command))
    (hfile : command.file? = some file)
    (hprepare : prepare around level file = (shown, .error ending)) :
    run around words = ⟨shown, ending⟩ := by
  rw [run, hrequest]
  cases command with
  | evaluate | converse =>
      obtain rfl := Option.some.inj hfile
      exact withSettings_of_error hprepare
  | tokens | tree | functions => cases hfile

theorem run_of_rejected [Limits] {e : SettingsError}
    (hrequest : request words = some (.run level command)) (hfile : command.file? = some file)
    (h : (Settings.load around.folder around.environment file).1 = .error (.rejected e)) :
    (run around words).ending = .exit 1 ∧ (run around words).texts = "" ∧
      (run around words).complaints = "Error: " ++ plain e.message ++ "\n" := by
  rw [run_of_prepare hrequest hfile (prepare_of_rejected h), loadingEvents, texts_told,
    complaints_told]
  exact ⟨rfl, texts_complain _, complaints_complain _⟩

theorem run_of_escapesWith [Limits] (hrequest : request words = some (.run level command))
    (hfile : command.file? = some file)
    (h : EscapesWith (Settings.load around.folder around.environment file).1 failure) :
    (run around words).ending = .aborted (.settings failure) ∧
      (run around words).complaints = "" := by
  rw [run_of_prepare hrequest hfile (prepare_of_escapesWith h), loadingEvents,
    ← List.append_nil (told _ _), complaints_told]
  exact ⟨rfl, rfl⟩

/-- Loading gives settings that keep the rules or is rejected with an error, unless what lies where
the settings are looked for makes another failure escape.  A command that needs settings exits with
code 1 and one line that tells the error; what escapes aborts it. -/
theorem load_reports_unless_escapes [Limits] (around : Surroundings) (file : Option String) :
    ((∃ s, (Settings.load around.folder around.environment file).1 = .ok s ∧ s.KeepsRules) ∨
      (∃ e, (Settings.load around.folder around.environment file).1 = .error (.rejected e)) ∨
      ∃ failure, ContentEscapes (around.settingsContent file) failure) ∧
    (∀ failure, ContentEscapes (around.settingsContent file) failure →
      (Settings.load around.folder around.environment file).1 = .error failure ∧
        ∀ e, failure ≠ .rejected e) ∧
    ∀ words level command, request words = some (.run level command) →
      command.file? = some file →
      (∀ e, (Settings.load around.folder around.environment file).1 = .error (.rejected e) →
        (run around words).ending = .exit 1 ∧ (run around words).texts = "" ∧
          (run around words).complaints = "Error: " ++ plain e.message ++ "\n") ∧
      ∀ failure, ContentEscapes (around.settingsContent file) failure →
        (run around words).ending = .aborted (.settings failure) ∧
          (run around words).complaints = "" := by
  have hescapes : ∀ failure,
      EscapesWith (Settings.load around.folder around.environment file).1 failure ↔
        ContentEscapes (around.settingsContent file) failure := by
    intro failure
    exact escapesWith_load_iff
  simp only [← hescapes]
  refine ⟨load_trichotomy around file, fun failure h => h, ?_⟩
  intro words level command hrequest hfile
  exact ⟨fun e h => run_of_rejected hrequest hfile h,
    fun failure h => run_of_escapesWith hrequest hfile h⟩

/-- A folder with a file that gives a number of places. -/
def placesSurroundings (places : String) : Surroundings where
  folder := .ofFiles "/" [("calcula.toml", "[calcula]\nprecision = " ++ places ++ "\n")]

/-- No number of places is reported as an error, but an infinite one aborts the command. -/
theorem load_reports_unless_escapes_infinite :
    request ["eval", "1"] = some (.run none (.evaluate "1" none none none)) ∧
    (run (placesSurroundings "nan") ["eval", "1"]).ending = .exit 1 ∧
    (run (placesSurroundings "nan") ["eval", "1"]).complaints =
      "Error: precision must be an integer, got nan\n" ∧
    ContentEscapes ((placesSurroundings "inf").settingsContent none) .infiniteInteger ∧
    (run (placesSurroundings "inf") ["eval", "1"]).ending =
      .aborted (.settings .infiniteInteger) ∧
    (run (placesSurroundings "inf") ["eval", "1"]).complaints = "" := by
  have hrequest : request ["eval", "1"] = some (.run none (.evaluate "1" none none none)) := by
    decide +kernel
  have hnan : (Settings.load (placesSurroundings "nan").folder {} none).1 =
      .error (.rejected (.notInteger "precision" "nan" .malformed)) := by
    decide +kernel
  have hinf : (Settings.load (placesSurroundings "inf").folder {} none).1 =
      .error .infiniteInteger := by
    decide +kernel
  obtain ⟨-, -, hcommands⟩ := load_reports_unless_escapes (placesSurroundings "nan") none
  obtain ⟨hexit, -, hcomplaints⟩ := (hcommands _ _ _ hrequest rfl).1 _ hnan
  obtain ⟨hloads, hfails, hcommands⟩ := load_reports_unless_escapes (placesSurroundings "inf") none
  have hescapes : ContentEscapes ((placesSurroundings "inf").settingsContent none)
      .infiniteInteger := by
    rcases hloads with ⟨s, hs, -⟩ | ⟨e, he⟩ | ⟨failure, hfailure⟩
    · cases hinf.symm.trans hs
    · cases hinf.symm.trans he
    · obtain rfl := Except.error.inj (hinf.symm.trans (hfails failure hfailure).1)
      exact hfailure
  obtain ⟨haborted, hsilent⟩ := (hcommands _ _ _ hrequest rfl).2 _ hescapes
  refine ⟨hrequest, hexit, ?_, hescapes, haborted, hsilent⟩
  rw [hcomplaints]
  decide +kernel

end LineCalculator.CommandLine
