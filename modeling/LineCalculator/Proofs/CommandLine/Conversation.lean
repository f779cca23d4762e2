import LineCalculator.Proofs.CommandLine.Evaluation

/-!
# Answering line after line

A conversation shows a prompt and an answer for every line in front of the first one that asks for
the end, and then a prompt and a farewell.  The answer to a line depends on the line and the
settings only: it is what evaluating the line shows, unless the line is too long.  The conversation
is cut short only by a value that cannot be printed.
-/

namespace LineCalculator.CommandLine

/-! ## Lines -/

/-- The lines of a text: each ends with the next line feed, and what stands behind the last line
feed is a line as well, unless it is empty. -/
inductive AreLinesOf : List (List Char) → List Char → Prop
  | nil : AreLinesOf [] []
  | last {line : List Char} (hne : line ≠ []) (hline : '\n' ∉ line) : AreLinesOf [line] line
  | cons {line rest : List Char} {lines : List (List Char)} (hline : '\n' ∉ line)
      (hrest : AreLinesOf lines rest) :
      AreLinesOf ((line ++ ['\n']) :: lines) (line ++ '\n' :: rest)

theorem areLinesOf_lines (cs : List Char) : AreLinesOf (Text.lines cs) cs := by
  induction cs using Text.lines.induct with
  | case1 => exact .nil
  | case2 cs ih =>
      have hline : '\n' ∉ ([] : List Char) := List.not_mem_nil
      exact .cons hline ih
  | case3 c cs hc hnil ih =>
      -- there are no lines behind the character, so it is the last one
      have hcs : cs = [] := by
        rw [← Text.flatten_lines cs, hnil]
        rfl
      have hline : '\n' ∉ [c] := fun h => hc (List.mem_singleton.mp h).symm
      simp only [Text.lines, hnil]
      rw [hcs]
      exact .last (List.cons_ne_nil c []) hline
  | case4 c cs hc line others hcons ih =>
      have hextend : ∀ body : List Char, '\n' ∉ body → '\n' ∉ c :: body := by
        intro body hbody h
        rcases List.mem_cons.mp h with h | h
        · exact hc h.symm
        · exact hbody h
      simp only [Text.lines, hcons]
      rw [hcons] at ih
      cases ih with
      | last hne hline => exact .last (List.cons_ne_nil c _) (hextend _ hline)
      | cons hline hrest => exact .cons (hextend _ hline) hrest

variable {s : Settings} {least : Severity} {line quit : List Char}
  {lines before after : List (List Char)}

/-- The lines in front of the first one that asks for the end. -/
def served (lines : List (List Char)) : List (List Char) :=
  lines.takeWhile fun line => !isFarewell line

/-- What is shown at the end of a conversation. -/
def farewell (lines : List (List Char)) : Event :=
  if lines.any isFarewell then say "calculator program exiting." else endOfLines

/-! ## Answers -/

/-- The line is not too long. -/
def Fits (s : Settings) (line : List Char) : Prop :=
  (stripTerminator line).length ≤ s.maxLineLength

/-- If the line is not too long, its value can be printed where one is shown. -/
def IsPrintable [Limits] (s : Settings) (least : Severity) (line : List Char) : Prop :=
  Fits s line → ∃ code, (evaluate s least (stripTerminator line)).ending = .exit code

theorem answer_of_not_fits [Limits] (h : ¬ Fits s line) :
    answer s least line = (told least [rejectedLine (stripTerminator line)] ++
      [complain ("line is longer than " ++ toString s.maxLineLength ++ " characters")], none) := by
  unfold answer
  rw [if_pos (Int.not_le.mp h)]

/-- The answer to a line is what its evaluation shows. -/
theorem answer_of_fits [Limits] (h : Fits s line) :
    (answer s least line).1 = (evaluate s least (stripTerminator line)).events ∧
      ((∃ code, (evaluate s least (stripTerminator line)).ending = .exit code) →
        (answer s least line).2 = none) := by
  unfold answer
  rw [if_neg (Int.not_lt.mpr h), evaluate_eq]
  generalize calculate (stripTerminator line) = calculated
  obtain ⟨outcome, log⟩ := calculated
  dsimp only
  cases report s outcome with
  | ok reported => exact ⟨rfl, fun _ => rfl⟩
  | error e =>
      refine ⟨rfl, ?_⟩
      rintro ⟨code, hending⟩
      cases hending

theorem IsPrintable.answer_snd [Limits] (h : IsPrintable s least line) :
    (answer s least line).2 = none := by
  by_cases hfits : Fits s line
  · exact (answer_of_fits hfits).2 (h hfits)
  · rw [answer_of_not_fits hfits]

theorem exists_code_evaluate [Limits] (hmin : 0 ≤ s.precision) (hmax : s.precision ≤ mostPlaces)
    (expression : List Char) : ∃ code, (evaluate s least expression).ending = .exit code := by
  by_cases hnot : s.strict = true ∧ (calculate expression).1.ok = false
  · obtain ⟨message, hevaluate⟩ := evaluate_of_not_ok least hnot.1 hnot.2
    exact ⟨1, by rw [hevaluate]⟩
  · obtain ⟨v, hv⟩ := exists_fixedPoint hmin hmax (calculatedValue expression)
    exact ⟨0, by rw [evaluate_of_value hnot, hv]⟩

/-! ## Conversations -/

theorem converse_cons_farewell [Limits] (h : isFarewell quit = true) (after : List (List Char)) :
    converse s least (quit :: after) =
      ⟨[say s.prompt, say "calculator program exiting."], .exit 0⟩ := by
  rw [converse, turn, if_pos h]

theorem converse_cons_answer [Limits] (h : isFarewell line = false)
    (hprintable : IsPrintable s least line) :
    converse s least (line :: lines) =
      (converse s least lines).after (say s.prompt :: (answer s least line).1) := by
  have hturn : turn s least line = ((answer s least line).1, none) := by
    have hreason := hprintable.answer_snd
    rw [turn, h, if_neg Bool.false_ne_true]
    generalize answer s least line = answered at hreason ⊢
    obtain ⟨events, reason⟩ := answered
    cases hreason
    rfl
  rw [converse, hturn]

/-- As long as values can be printed, every line that is served is answered behind a prompt. -/
theorem converse_eq [Limits] (h : ∀ line ∈ served lines, IsPrintable s least line) :
    converse s least lines =
      ⟨((served lines).flatMap fun line => say s.prompt :: (answer s least line).1) ++
        [say s.prompt, farewell lines], .exit 0⟩ := by
  induction lines with
  | nil => rfl
  | cons line lines ih =>
      cases hquit : isFarewell line with
      | true =>
          have hserved : served (line :: lines) = [] := by simp [served, hquit]
          have hfarewell : farewell (line :: lines) = say "calculator program exiting." := by
            simp [farewell, hquit]
          rw [converse_cons_farewell hquit, hserved, hfarewell]
          rfl
      | false =>
          have hserved : served (line :: lines) = line :: served lines := by simp [served, hquit]
          have hfarewell : farewell (line :: lines) = farewell lines := by simp [farewell, hquit]
          rw [hserved, List.forall_mem_cons] at h
          rw [converse_cons_answer hquit h.1, ih h.2, hserved, hfarewell, Output.after,
            List.flatMap_cons, List.append_assoc]

/-- What is typed behind a line that asks for the end does not matter. -/
theorem converse_append_farewell [Limits] (h : isFarewell quit = true)
    (before after : List (List Char)) :
    converse s least (before ++ quit :: after) = converse s least (before ++ [quit]) := by
  induction before with
  | nil => rw [List.nil_append, List.nil_append, converse_cons_farewell h, converse_cons_farewell h]
  | cons line before ih =>
      rw [List.cons_append, List.cons_append, converse, converse, ih]

/-! ## The whole command -/

variable {around : Surroundings} {words : List String} {level file : Option String}
  {strict : Option Bool} {precision : Option Nat}

theorem run_evaluate_eq [Limits] {expression : String}
    (hrequest : request words = some (.run level (.evaluate expression strict precision file)))
    (hs : IsEffective around level file strict precision s) (hleast : s.level? = some least) :
    run around words = (evaluate s least expression.toList).after (loadingEvents around file) := by
  rw [run, hrequest]
  exact (withSettings_of_isEffective (fun s least => evaluate s least expression.toList)
    hs hleast).2

theorem run_converse_eq [Limits]
    (hrequest : request words = some (.run level (.converse strict file)))
    (hs : IsEffective around level file strict none s) (hleast : s.level? = some least) :
    run around words =
      (converse s least (typedLines around.typed)).after (loadingEvents around file) := by
  rw [run, hrequest]
  exact (withSettings_of_isEffective (fun s least => converse s least (typedLines around.typed))
    hs hleast).2

/-- The events are the output of a line: a complaint if it is too long, and otherwise what the
command that evaluates its text shows behind the loading of the same settings. -/
structure IsOwnOutput [Limits] (s : Settings) (least : Severity) (line : List Char)
    (events : List Event) :
    Prop where
  tooLong : ¬ Fits s line → events = told least [rejectedLine (stripTerminator line)] ++
    [complain ("line is longer than " ++ toString s.maxLineLength ++ " characters")]
  evaluated : Fits s line → ∀ around words level file strict precision,
    request words = some (.run level
      (.evaluate (String.ofList (stripTerminator line)) strict precision file)) →
    IsEffective around level file strict precision s →
      (run around words).events = loadingEvents around file ++ events

theorem isOwnOutput_answer [Limits] (hleast : s.level? = some least) (line : List Char) :
    IsOwnOutput s least line (answer s least line).1 := by
  constructor
  · intro hfits
    rw [answer_of_not_fits hfits]
  · intro hfits around words level file strict precision hrequest hs
    rw [run_evaluate_eq hrequest hs hleast, String.toList_ofList, (answer_of_fits hfits).1]
    rfl

/-- The lines of a typed text are served one after the other, each with a prompt and its own output,
up to the first line that asks for the end, and whatever follows that line does not matter.  The own
output depends on the line and the settings only.  The command succeeds if the values of the lines
that are served can be printed, which is so for every number of places in range.  A prompt without
escape characters is shown as it is. -/
theorem run_converse [Limits] (hrequest : request words = some (.run level (.converse strict file)))
    (hs : IsEffective around level file strict none s) (hleast : s.level? = some least) :
    AreLinesOf (typedLines around.typed) (Text.plainLines around.typed) ∧
    (∀ line, IsOwnOutput s least line (answer s least line).1) ∧
    ((∀ line ∈ served (typedLines around.typed), IsPrintable s least line) →
      run around words = ⟨loadingEvents around file ++
        (((served (typedLines around.typed)).flatMap fun line =>
            say s.prompt :: (answer s least line).1) ++
          [say s.prompt, farewell (typedLines around.typed)]), .exit 0⟩) ∧
    (s.precision ≤ mostPlaces → ∀ line, IsPrintable s least line) ∧
    (∀ typed before quit after, isFarewell quit = true →
      typedLines around.typed = before ++ quit :: after → typedLines typed = before ++ [quit] →
        run { around with typed } words = run around words) ∧
    (escape ∉ s.prompt.toList → say s.prompt = .text (s.prompt ++ "\n")) := by
  have hrun := run_converse_eq hrequest hs hleast
  refine ⟨areLinesOf_lines _, isOwnOutput_answer hleast, ?_, ?_, ?_, ?_⟩
  · intro hprintable
    rw [hrun, converse_eq hprintable]
    rfl
  · intro hplaces line _
    exact exists_code_evaluate (withSettings_of_isEffective (fun _ _ => ⟨[], .exit 0⟩) hs hleast).1
      hplaces _
  · intro typed before quit after hquit htyped htyped'
    have hs' : IsEffective { around with typed } level file strict none s := ⟨hs.loads, hs.layers⟩
    rw [hrun, run_converse_eq hrequest hs' hleast, htyped, htyped',
      converse_append_farewell hquit before after]
    rfl
  · intro hescape
    rw [say, plain_eq_self hescape]

/-- Short lines are allowed, in strict mode; the third line is too long and the fourth asks for the
end. -/
def strictSurroundings : Surroundings where
  folder := .ofFiles "/" []
  environment := { maxLine := some "3", strict := some "yes" }
  typed := "1+1\r\n1/\n12345\nquit\n2".toList

/-- An error and a line that is too long do not end a conversation. -/
theorem run_converse_strict :
    request ["repl"] = some (.run none (.converse none none)) ∧
    (∃ s, IsEffective strictSurroundings none none none none s ∧ s.level? = some .warning ∧
      ∀ line ∈ served (typedLines strictSurroundings.typed), IsPrintable s .warning line) ∧
    (run strictSurroundings ["repl"]).ending = .exit 0 ∧
    (run strictSurroundings ["repl"]).texts =
      "please enter an equation or 'q' to quit.\nresult of equation '1+1' = 2.000000\n" ++
        "please enter an equation or 'q' to quit.\nplease enter an equation or 'q' to quit.\n" ++
        "please enter an equation or 'q' to quit.\ncalculator program exiting.\n" := by
  have hrequest : request ["repl"] = some (.run none (.converse none none)) := by decide +kernel
  have hload : (Settings.load strictSurroundings.folder strictSurroundings.environment none).1 =
      .ok { maxLineLength := 3, strict := true } := by
    decide +kernel
  have hs : IsEffective strictSurroundings none none none none
      { maxLineLength := 3, strict := true } :=
    (isEffective_iff hload).mpr rfl
  have hleast : Settings.level? { maxLineLength := 3, strict := true } = some .warning := by
    decide +kernel
  obtain ⟨-, -, hrun, hplaces, -⟩ := run_converse hrequest hs hleast
  have hprintable := fun line (_ : line ∈ served (typedLines strictSurroundings.typed)) =>
    hplaces (by decide) line
  rw [hrun hprintable]
  exact ⟨hrequest, ⟨_, hs, hleast, hprintable⟩, rfl, by decide +kernel⟩

/-! ## What can go wrong -/

/-- More places are chosen than a number can be printed with. -/
def preciseSurroundings : Surroundings where
  folder := .ofFiles "/" []
  environment := { precision := some "2147483648" }
  typed := ['1', '\n']

/-- The prompt starts with a sequence that steers a terminal. -/
def steeringSurroundings : Surroundings where
  folder := .ofFiles "/" [("calcula.toml", "[calcula]\nprompt = \"\\u001b[1m>\"\n")]

/-- With too many places the command does not succeed, and a prompt that steers a terminal is not
shown as it is. -/
theorem run_converse_aborted :
    (∃ s, IsEffective preciseSurroundings none none none none s ∧ s.level? = some .warning) ∧
    (run preciseSurroundings ["repl"]).ending = .aborted (.places .tooManyPlaces) ∧
    ∃ s, IsEffective steeringSurroundings none none none none s ∧ s.level? = some .warning ∧
      (run steeringSurroundings ["repl"]).ending = .exit 0 ∧
      ¬ s.prompt.toList <+: (run steeringSurroundings ["repl"]).texts.toList := by
  have hload : (Settings.load preciseSurroundings.folder preciseSurroundings.environment none).1 =
      .ok { precision := 2147483648 } := by
    decide +kernel
  have hload' :
      (Settings.load steeringSurroundings.folder steeringSurroundings.environment none).1 =
        .ok { prompt := "\x1b[1m>" } := by
    decide +kernel
  refine ⟨⟨_, (isEffective_iff hload).mpr rfl, by decide +kernel⟩, by decide +kernel,
    ⟨_, (isEffective_iff hload').mpr rfl, by decide +kernel, by decide +kernel, by decide +kernel⟩⟩

end LineCalculator.CommandLine
