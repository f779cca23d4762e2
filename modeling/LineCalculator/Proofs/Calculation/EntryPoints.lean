import LineCalculator.Proofs.Calculation.Outcome
import LineCalculator.Proofs.Reader.Primed

/-!
# The ways to a value

A line can be calculated, or read as a whole and then evaluated, or evaluated from a lexer that
holds its first token.  All three give the same value or the same error.  The third alone does not
mind what is left behind an expression, and leaves the lexer there.
-/

namespace LineCalculator

variable {line : List Char} {v : Float}

/-! ## Outcomes -/

theorem stripTerminator_eq_self (h : line.getLast? ≠ some '\n') : stripTerminator line = line := by
  rw [← List.head?_reverse] at h
  rw [stripTerminator]
  split
  · rename_i hreverse
    exact absurd (by rw [hreverse]; rfl) h
  · rename_i hreverse
    exact absurd (by rw [hreverse]; rfl) h
  · rfl

theorem calculate_eq_success_iff [Limits] (h : line.getLast? ≠ some '\n') :
    (calculate line).1 = .success line v ↔ (evaluateLine line).result = .ok v := by
  have hstrip := stripTerminator_eq_self h
  cases hresult : (evaluateLine line).result with
  | ok x =>
      rw [← hstrip] at hresult
      rw [outcome_of_ok hresult, hstrip]
      simp [Outcome.success]
  | error e =>
      rw [← hstrip] at hresult
      rw [outcome_of_error hresult]
      simp [Outcome.success, Outcome.failure]

theorem calculate_eq_failure [Limits] (h : line.getLast? ≠ some '\n') {e : ExprError}
    (herror : (evaluateLine line).result = .error e) : (calculate line).1 = .failure line e := by
  have hstrip := stripTerminator_eq_self h
  rw [← hstrip] at herror
  rw [outcome_of_error herror, hstrip]

theorem ok_calculate_eq_false_iff [Limits] (h : line.getLast? ≠ some '\n') :
    (calculate line).1.ok = false ↔ ∃ e, (evaluateLine line).result = .error e := by
  cases hresult : (evaluateLine line).result with
  | ok x =>
      rw [(calculate_eq_success_iff h).mpr hresult]
      simp [Outcome.ok, Outcome.success]
  | error e =>
      rw [calculate_eq_failure h hresult]
      simp [Outcome.ok, Outcome.failure]

theorem evaluateLine_eq_ok_iff [Limits] :
    (evaluateLine line).result = .ok v ↔ ∃ t, (readLine line).result = .ok t ∧ t.eval = .ok v := by
  cases hread : (readLine line).result with
  | ok t =>
      rw [evaluateLine_of_ok hread]
      cases heval : t.eval <;> simp [Except.mapError, heval]
  | error e =>
      rw [evaluateLine_of_error hread]
      simp

/-! ## The primed lexer -/

theorem evaluate_of_ok [Limits] {t : Expr} (h : ((Lexer.primed line).parse .expr).result = .ok t) :
    (Lexer.primed line).evaluate.result = t.eval.mapError ExprError.ofEval :=
  Step.result_andThen_of_ok h

theorem evaluate_of_error [Limits] {e : ExprError}
    (h : ((Lexer.primed line).parse .expr).result = .error e) :
    (Lexer.primed line).evaluate.result = .error e :=
  Step.result_andThen_of_error h

/-- Evaluating from the primed lexer compared with the value of the line: they are the same and
nothing is left behind a value, or a token follows that only the line minds. -/
inductive EvaluatesAlike [Limits] (line : List Char) : Prop
  | same (hresult : (Lexer.primed line).evaluate.result = (evaluateLine line).result)
      (hcurrent : ∀ v, (Lexer.primed line).evaluate.result = .ok v →
        (Lexer.primed line).evaluate.lexer.current.kind = .invalid)
      (hnot : (Lexer.primed line).evaluate.result ≠ .error .tooDeep → ∀ ts u, ¬ Trails line ts u) :
      EvaluatesAlike line
  | trailing {ts : List Token} {u : Token} {fault : GrammarFault} (htrails : Trails line ts u)
      (hline : (evaluateLine line).result = .error (.grammatical fault u.start))
      (hvalue : ∀ e, (Lexer.primed line).evaluate.result = .error e → e = .tooDeep)
      (hcurrent : (Lexer.primed line).evaluate.lexer.current = u) : EvaluatesAlike line

theorem evaluatesAlike [Limits] (line : List Char) : EvaluatesAlike line := by
  cases readsAlike line with
  | whole hline hexpr hcurrent =>
      refine .same ((evaluate_of_ok hexpr).trans (evaluateLine_of_ok hline).symm) ?_ ?_
      · intro _ _
        exact congrArg Token.kind hcurrent
      · intro _ _ _ htrails
        exact htrails.readLine_ne_ok _ hline
  | trailing htrails hline hexpr hreadable hcurrent =>
      refine .trailing htrails (evaluateLine_of_error hline) ?_ hcurrent
      intro e he
      exact hreadable.isWellFormed.error_eq_tooDeep ((evaluate_of_ok hexpr).symm.trans he)
  | failed hline hexpr hnot =>
      have hresult := evaluate_of_error hexpr
      refine .same (hresult.trans (evaluateLine_of_error hline).symm) ?_ ?_
      · intro v hv
        cases hresult.symm.trans hv
      · intro hdeep
        rw [hresult] at hdeep
        exact hnot fun he => hdeep (congrArg Except.error he)

/-- The line has a value exactly if the primed lexer has it and nothing is left. -/
theorem evaluateLine_eq_ok_iff_evaluate [Limits] :
    (evaluateLine line).result = .ok v ↔ (Lexer.primed line).evaluate.result = .ok v ∧
      (Lexer.primed line).evaluate.lexer.current.kind = .invalid := by
  cases evaluatesAlike line with
  | same hresult hcurrent hnot =>
      rw [← hresult]
      exact ⟨fun h => ⟨h, hcurrent v h⟩, fun h => h.1⟩
  | trailing htrails hline hvalue hcurrent =>
      refine iff_of_false (by simp [hline]) ?_
      rintro ⟨-, hkind⟩
      have hfound := htrails.isFound
      rw [hcurrent] at hkind
      simp [Token.isFound, hkind] at hfound

/-- An error from the primed lexer is the error of the line, except where a token follows a line
that is too deep to be evaluated. -/
theorem evaluateLine_of_evaluate_error [Limits] {e : ExprError}
    (h : (Lexer.primed line).evaluate.result = .error e) (hdeep : e ≠ .tooDeep) :
    (evaluateLine line).result = .error e := by
  cases evaluatesAlike line with
  | same hresult hcurrent hnot => exact hresult.symm.trans h
  | trailing htrails hline hvalue hcurrent => exact absurd (hvalue e h) hdeep

/-- If only the primed lexer has a value, it stands at a token that follows a line, and the line
objects to this token. -/
theorem trails_of_evaluate [Limits] {e : ExprError}
    (h : (Lexer.primed line).evaluate.result = .ok v)
    (hline : (evaluateLine line).result = .error e) :
    ∃ ts, Trails line ts (Lexer.primed line).evaluate.lexer.current ∧
      e.position? = some (Lexer.primed line).evaluate.lexer.current.start := by
  cases evaluatesAlike line with
  | same hresult hcurrent hnot => cases h.symm.trans (hresult.trans hline)
  | @trailing ts u fault htrails hline' hvalue hcurrent =>
      cases hline.symm.trans hline'
      rw [hcurrent]
      exact ⟨ts, htrails, rfl⟩

/-- Where a token follows a line, only the primed lexer can have a value. -/
theorem evaluate_of_trails [Limits] {ts : List Token} {u : Token} (h : Trails line ts u)
    (hdeep : (Lexer.primed line).evaluate.result ≠ .error .tooDeep) :
    (∃ v, (Lexer.primed line).evaluate.result = .ok v) ∧
      ∃ e, (evaluateLine line).result = .error e := by
  cases evaluatesAlike line with
  | same hresult hcurrent hnot => exact absurd h (hnot hdeep ts u)
  | trailing htrails hline hvalue hcurrent =>
      refine ⟨?_, _, hline⟩
      cases hresult : (Lexer.primed line).evaluate.result with
      | ok v => exact ⟨v, rfl⟩
      | error e =>
          rw [hresult, hvalue e hresult] at hdeep
          exact absurd rfl hdeep

/-! ## Agreement -/

/-- Calculating a line gives a value exactly if the line is read as a tree with this value, and
exactly if the primed lexer gives this value and holds no token then.  An error of reading is
reported as it is, and so is an error from the primed lexer unless it is one of depth.  Only the
primed lexer gives a value exactly where a token follows a line with which no line goes on, unless
that is too deep; the lexer then holds this token, and its start is reported. -/
theorem entryPoints_agree [Limits] (line : List Char) (hline : line.getLast? ≠ some '
') :
    (∀ v, ((calculate line).1 = .success line v ↔
        ∃ t, (readLine line).result = .ok t ∧ t.eval = .ok v) ∧
      ((calculate line).1 = .success line v ↔ (Lexer.primed line).evaluate.result = .ok v ∧
        (Lexer.primed line).evaluate.lexer.current.kind = .invalid)) ∧
    (∀ e, (readLine line).result = .error e → (calculate line).1 = .failure line e) ∧
    (∀ e, (Lexer.primed line).evaluate.result = .error e → e ≠ .tooDeep →
      (calculate line).1 = .failure line e) ∧
    ((Lexer.primed line).evaluate.result ≠ .error .tooDeep →
      ((∃ v, (Lexer.primed line).evaluate.result = .ok v) ∧ (calculate line).1.ok = false ↔
        ∃ ts u, Trails line ts u)) ∧
    ∀ v, (Lexer.primed line).evaluate.result = .ok v → (calculate line).1.ok = false →
      ∃ ts, Trails line ts (Lexer.primed line).evaluate.lexer.current ∧
        (calculate line).1.position =
          some (Lexer.primed line).evaluate.lexer.current.start := by
  have hok := ok_calculate_eq_false_iff hline
  refine ⟨fun v => ⟨?_, ?_⟩, ?_, ?_, ?_, ?_⟩
  · rw [calculate_eq_success_iff hline]
    exact evaluateLine_eq_ok_iff
  · rw [calculate_eq_success_iff hline]
    exact evaluateLine_eq_ok_iff_evaluate
  · intro e he
    exact calculate_eq_failure hline (evaluateLine_of_error he)
  · intro e he hdeep
    exact calculate_eq_failure hline (evaluateLine_of_evaluate_error he hdeep)
  · intro hdeep
    rw [hok]
    constructor
    · rintro ⟨⟨v, hv⟩, e, he⟩
      obtain ⟨ts, htrails, -⟩ := trails_of_evaluate hv he
      exact ⟨ts, _, htrails⟩
    · rintro ⟨ts, u, htrails⟩
      exact evaluate_of_trails htrails hdeep
  · intro v hv hfalse
    obtain ⟨e, he⟩ := hok.mp hfalse
    rw [calculate_eq_failure hline he]
    exact trails_of_evaluate hv he

/-- A bracket that was never opened follows a sum. -/
theorem entryPoints_agree_bracket :
    (∃ ts u, Trails ['1', '+', '1', ' ', ']'] ts u) ∧
      (calculate ['1', '+', '1', ' ', ']']).1.position = some 4 := by
  have hvalue : (Lexer.primed ['1', '+', '1', ' ', ']']).evaluate.result = .ok 2 := by
    decide +kernel
  have hfails : (calculate ['1', '+', '1', ' ', ']']).1.ok = false := by decide +kernel
  have hstart :
      (Lexer.primed ['1', '+', '1', ' ', ']']).evaluate.lexer.current.start = 4 := by
    decide +kernel
  obtain ⟨-, -, -, htrails, hplace⟩ := entryPoints_agree ['1', '+', '1', ' ', ']'] (by decide)
  obtain ⟨ts, -, hposition⟩ := hplace 2 hvalue hfails
  rw [hstart] at hposition
  exact ⟨(htrails (by simp [hvalue])).mp ⟨⟨2, hvalue⟩, hfails⟩, hposition⟩

end LineCalculator
