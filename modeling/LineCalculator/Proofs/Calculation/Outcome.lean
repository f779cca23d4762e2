import Mathlib.Order.Basic
import LineCalculator.Proofs.Calculation.WellFormed

/-!
# What comes of a line

A line has either a value or an error, never both and never neither.  An error that is not one of
depth stands at a position of the line.  Since evaluating a tree that was read can only fail for its
depth, these are all the errors there are, and the error of depth is the only one without position.
-/

namespace LineCalculator

variable {source : List Char}

/-! ## Where errors stand -/

/-- Every token of a source starts inside it. -/
theorem start_of_mem_tokensOf {u : Token} (h : u ∈ tokensOf source) :
    0 ≤ u.start ∧ u.start < source.length := by
  obtain ⟨ps, ending, hmade⟩ := exists_isMadeOf 0 source
  rw [hmade.tokensOf_eq] at h
  obtain ⟨rest, rfl, hspelling, -⟩ := hmade
  have hbounds := (inOrder_spelledTokens hspelling 0).bounds u h
  have hlength := length_spell ps rest
  omega

/-- An error without the limit on depth has a position inside the line. -/
theorem exists_position_of_readLine [Limits] {e : ExprError}
    (h : (readLine source).result = .error e)
    (hdeep : e ≠ .tooDeep) : ∃ p, e.position? = some p ∧ 0 ≤ p ∧ p ≤ source.length := by
  obtain ⟨ts, -, -, htoken | ⟨-, ⟨fault, rfl⟩, -⟩ | ⟨-, fault, hfault, rfl⟩⟩ :=
    exists_fails_of_readLine h hdeep
  · obtain ⟨u, fault, ⟨more, hmore⟩, rfl, -⟩ := htoken
    have hu : u ∈ tokensOf source := by
      rw [← hmore]
      simp
    obtain ⟨hstart, hlt⟩ := start_of_mem_tokensOf hu
    exact ⟨u.start, rfl, hstart, Int.le_of_lt hlt⟩
  · exact ⟨source.length, rfl, Int.natCast_nonneg _, Int.le_refl _⟩
  · have hlt := pos_lt_of_tokenize hfault
    exact ⟨fault.pos, rfl, Int.natCast_nonneg _, by omega⟩

/-! ## How messages open -/

/-- The openings of messages about the text of a line. -/
def messageOpenings : List String :=
  ["Unexpected ", "Expected '", "Unknown name '", "Extra '.'", "Invalid decimal literal: "]

/-- A message opens in one of these ways. -/
def HasOpening (message : String) : Prop :=
  ∃ opening ∈ messageOpenings, opening.toList <+: message.toList

theorem HasOpening.append {message : String} (h : HasOpening message) (more : String) :
    HasOpening (message ++ more) := by
  obtain ⟨opening, hmem, hbegins⟩ := h
  refine ⟨opening, hmem, ?_⟩
  rw [String.toList_append]
  exact hbegins.trans (List.prefix_append _ _)

instance (message : String) : Decidable (HasOpening message) :=
  inferInstanceAs (Decidable (∃ opening ∈ messageOpenings, opening.toList <+: message.toList))

theorem LexicalFault.hasOpening (fault : LexicalFault) : HasOpening fault.message := by
  cases fault with
  | unexpectedCharacter c =>
      have hopening : HasOpening "Unexpected character: " := by decide
      exact hopening.append _
  | extraPoint =>
      have hopening : HasOpening "Extra '.' in decimal literal" := by decide
      exact hopening
  | strayInLiteral c =>
      have hopening : HasOpening "Invalid decimal literal: unexpected " := by decide
      exact hopening.append _

theorem GrammarFault.hasOpening (fault : GrammarFault) : HasOpening fault.message := by
  cases fault with
  | unexpected found =>
      have hopening : HasOpening "Unexpected " := by decide
      exact hopening.append _
  | expected kind found =>
      have hopening : HasOpening "Expected '" := by decide
      exact ((hopening.append _).append _).append _
  | trailing found =>
      have hopening : HasOpening "Unexpected token after expression: " := by decide
      exact hopening.append _
  | unknownName name =>
      have hopening : HasOpening "Unknown name '" := by decide
      exact (hopening.append _).append _

/-- An error in the text of a line says something, and does not say that it is the depth. -/
theorem ExprError.IsParseError.message_ne {e : ExprError} (h : e.IsParseError) :
    e.message ≠ "" ∧ e.message ≠ "Expression is nested too deeply" := by
  have hempty : ¬ HasOpening "" := by decide
  have hdepth : ¬ HasOpening "Expression is nested too deeply" := by decide
  have hopening : HasOpening e.message := by
    rcases h with ⟨fault, rfl⟩ | ⟨fault, position, rfl⟩
    · exact fault.fault.hasOpening
    · exact fault.hasOpening
  constructor
  · intro hmessage
    exact hempty (hmessage ▸ hopening)
  · intro hmessage
    exact hdepth (hmessage ▸ hopening)

/-! ## The errors of a line -/

theorem evaluateLine_of_error [Limits] {e : ExprError} (h : (readLine source).result = .error e) :
    (evaluateLine source).result = .error e :=
  Step.result_andThen_of_error h

theorem evaluateLine_of_ok [Limits] {t : Expr} (h : (readLine source).result = .ok t) :
    (evaluateLine source).result = t.eval.mapError ExprError.ofEval :=
  Step.result_andThen_of_ok h

/-- A line that has no value is too deep, or an error in its text has a position inside it. -/
theorem evaluateLine_error [Limits] {e : ExprError} (h : (evaluateLine source).result = .error e) :
    e = .tooDeep ∨
      e.IsParseError ∧ ∃ p, e.position? = some p ∧ 0 ≤ p ∧ p ≤ source.length := by
  by_cases hdeep : e = .tooDeep
  · exact Or.inl hdeep
  · right
    cases hread : (readLine source).result with
    | error error =>
        cases h.symm.trans (evaluateLine_of_error hread)
        exact ⟨isParseError_of_readLine hread hdeep, exists_position_of_readLine hread hdeep⟩
    | ok t =>
        rw [evaluateLine_of_ok hread] at h
        exact absurd ((isWellFormed_of_readLine hread).error_eq_tooDeep h) hdeep

theorem message_ne_of_evaluateLine [Limits] {e : ExprError}
    (h : (evaluateLine source).result = .error e) : e.message ≠ "" := by
  rcases evaluateLine_error h with rfl | ⟨hparse, -⟩
  · decide
  · exact hparse.message_ne.1

theorem position?_eq_none_iff [Limits] {e : ExprError}
    (h : (evaluateLine source).result = .error e) :
    e.position? = none ↔ e = .tooDeep := by
  rcases evaluateLine_error h with rfl | ⟨-, p, hp, -⟩
  · exact iff_of_true rfl rfl
  · refine iff_of_false (by simp [hp]) ?_
    rintro rfl
    cases hp

theorem message_eq_iff [Limits] {e : ExprError} (h : (evaluateLine source).result = .error e) :
    e.message = "Expression is nested too deeply" ↔ e.position? = none := by
  rcases evaluateLine_error h with rfl | ⟨hparse, p, hp, -⟩
  · exact iff_of_true rfl rfl
  · exact iff_of_false hparse.message_ne.2 (by simp [hp])

theorem position_bounds [Limits] {e : ExprError} (h : (evaluateLine source).result = .error e) :
    ∀ p ∈ e.position?, 0 ≤ p ∧ p ≤ source.length := by
  rcases evaluateLine_error h with rfl | ⟨-, p, hp, hbounds⟩
  · rintro p ⟨⟩
  · rw [hp]
    rintro q ⟨⟩
    exact hbounds

/-! ## The two shapes -/

/-- A source has a value: everything that is answered for it gives this value and no error. -/
structure CalculatesTo [Limits] (source : List Char) (x : Float) : Prop where
  value_eq : (calculate source).1.value = some x
  error_eq : (calculate source).1.error = none
  position_eq : (calculate source).1.position = none
  ok_eq : (calculate source).1.ok = true
  unwrap_eq : (calculate source).1.unwrap = .ok x
  calculatedValue_eq : calculatedValue source = x

/-- A source has no value: everything that is answered for it gives this message and position, the
infinite value aside.  There is no position exactly when the line is too deep, and the message then
says so. -/
structure FailsWith [Limits] (source : List Char) (message : String) (position : Option Int) :
    Prop where
  value_eq : (calculate source).1.value = none
  error_eq : (calculate source).1.error = some message
  position_eq : (calculate source).1.position = position
  message_ne : message ≠ ""
  ok_eq : (calculate source).1.ok = false
  unwrap_eq : (calculate source).1.unwrap =
    .error (.about message (stripTerminator source) position)
  calculatedValue_eq : calculatedValue source = Binary64.ofCode Binary64.infinity
  position_eq_none_iff : position = none ↔
    (evaluateLine (stripTerminator source)).result = .error .tooDeep
  message_eq_iff : message = "Expression is nested too deeply" ↔ position = none
  bounds : ∀ p ∈ position, 0 ≤ p ∧ p ≤ (stripTerminator source).length

theorem outcome_of_ok [Limits] {x : Float}
    (h : (evaluateLine (stripTerminator source)).result = .ok x) :
    (calculate source).1 = .success (stripTerminator source) x := by
  simp only [calculate, h]

theorem outcome_of_error [Limits] {e : ExprError}
    (h : (evaluateLine (stripTerminator source)).result = .error e) :
    (calculate source).1 = .failure (stripTerminator source) e := by
  simp only [calculate, h]

theorem calculatesTo_of_ok [Limits] {x : Float}
    (h : (evaluateLine (stripTerminator source)).result = .ok x) : CalculatesTo source x := by
  have houtcome := outcome_of_ok h
  constructor
  · rw [houtcome]
    rfl
  · rw [houtcome]
    rfl
  · rw [houtcome]
    rfl
  · rw [houtcome]
    rfl
  · rw [houtcome]
    rfl
  · rw [calculatedValue, houtcome]
    rfl

theorem unwrap_failure {line : List Char} {e : ExprError} (h : e.message ≠ "") :
    (Outcome.failure line e).unwrap = .error (.about e.message line e.position?) := by
  simp [Outcome.unwrap, Outcome.failure, Outcome.diagnostic, Option.filter, h]

theorem failsWith_of_error [Limits] {e : ExprError}
    (h : (evaluateLine (stripTerminator source)).result = .error e) :
    FailsWith source e.message e.position? := by
  have houtcome := outcome_of_error h
  have hne := message_ne_of_evaluateLine h
  constructor
  · rw [houtcome]
    rfl
  · rw [houtcome]
    rfl
  · rw [houtcome]
    rfl
  · exact hne
  · rw [houtcome]
    rfl
  · rw [houtcome, unwrap_failure hne]
  · rw [calculatedValue, houtcome]
    rfl
  · rw [position?_eq_none_iff h, h, Except.error.injEq]
  · exact message_eq_iff h
  · exact position_bounds h

/-- Calculating keeps the line without its terminator, never loses a value without saying why, and
has exactly one of two shapes: a value and nothing else, or an error and no value. -/
theorem calculate_shape [Limits] (source : List Char) :
    (calculate source).1.source = stripTerminator source ∧
      ((calculate source).1.ok = true → (calculate source).1.value.isSome = true) ∧
      Xor (∃ x, CalculatesTo source x) (∃ message position, FailsWith source message position) := by
  cases hresult : (evaluateLine (stripTerminator source)).result with
  | ok x =>
      have hshape := calculatesTo_of_ok hresult
      refine ⟨by rw [outcome_of_ok hresult]; rfl, fun _ => by simp [hshape.value_eq],
        Or.inl ⟨⟨x, hshape⟩, ?_⟩⟩
      rintro ⟨message, position, hfails⟩
      cases hshape.value_eq.symm.trans hfails.value_eq
  | error e =>
      have hshape := failsWith_of_error hresult
      refine ⟨by rw [outcome_of_error hresult]; rfl, fun hok => ?_, Or.inr ⟨⟨_, _, hshape⟩, ?_⟩⟩
      · rw [hshape.ok_eq] at hok
        cases hok
      · rintro ⟨x, hvalue⟩
        cases hshape.value_eq.symm.trans hvalue.value_eq

end LineCalculator
