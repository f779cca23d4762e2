import LineCalculator.Proofs.Calculation.Outcome
import LineCalculator.Proofs.Lexical.States

/-!
# What is told about a line

The reader tells of an objection at the moment it objects, and the calculator tells what came of the
line.  A reader objects at most once, since it fails with its objection and nobody takes a failure
back.  So the records of a line follow from what came of it: an objection of the reader is told by
the reader and again by the calculator, and everything else by the calculator alone.
-/

namespace LineCalculator

variable {source : List Char}

/-! ## The records of the reader -/

/-- The record of an objection at a position of a line. -/
def refusalRecord (line : List Char) (fault : GrammarFault) (position : Int) : Record :=
  ⟨.debug, "calcula.core.expression_lang.parser",
    "Parse error at " ++ toString position ++ " in " ++ Text.quoted (String.ofList line) ++ ": " ++
      fault.message⟩

/-- What the reader tells of a line that is read with a result. -/
def readingRecords {α : Type} (line : List Char) : Except ExprError α → List Record
  | .error (.grammatical fault position) => [refusalRecord line fault position]
  | _ => []

theorem objection_leaving (l : Lexer) (fault : GrammarFault) (left : Nat) :
    (l.leaving left).objection fault =
      refusalRecord l.source fault (l.leaving left).place := by
  rw [Lexer.objection, refusalRecord, Lexer.leaving, Lexer.source_steps]

/-- The reader tells of an objection if and only if reading fails with it, and then once. -/
theorem log_parse [Limits] (l : Lexer) (production : Production) :
    (l.parse production).log = readingRecords l.source (l.parse production).result := by
  have hplace := failsInPlace_production production l.input
  rw [Lexer.parse]
  cases hresult : production.parser l.input with
  | ok e rest =>
      rw [hresult] at hplace
      have hnone : rest.refusals = [] := hplace.refusals_eq
      simp only [Lexer.told, hnone, List.map_nil]
      rfl
  | error failure rest =>
      rw [hresult] at hplace
      have htold : rest.refusals = failure.refusals := hplace.1.refusals_eq
      simp only [Lexer.told, htold]
      cases failure with
      | refused refusal => exact congrArg (· :: []) (objection_leaving l refusal.fault refusal.left)
      | _ => rfl

theorem log_readLine [Limits] (source : List Char) :
    (readLine source).log = readingRecords source (readLine source).result := by
  have hsource : (Lexer.primed source).source = source := Lexer.source_next _
  rw [readLine_eq_parse, log_parse, hsource]

/-! ## The records of a line -/

/-- A tree that was read without objection adds no record of the reader, whatever its value is. -/
theorem log_evaluateLine [Limits] (source : List Char) :
    (evaluateLine source).log = readingRecords source (evaluateLine source).result := by
  have hlog : (evaluateLine source).log = (readLine source).log := rfl
  rw [hlog, log_readLine]
  cases hread : (readLine source).result with
  | error e =>
      rw [evaluateLine_of_error hread]
      cases e <;> rfl
  | ok t =>
      cases hresult : (evaluateLine source).result with
      | ok x => rfl
      | error e =>
          rw [evaluateLine_of_ok hread] at hresult
          rw [(isWellFormed_of_readLine hread).error_eq_tooDeep hresult]
          rfl

theorem records_of_ok [Limits] {x : Float}
    (h : (evaluateLine (stripTerminator source)).result = .ok x) :
    (calculate source).2 = [successRecord (stripTerminator source) x] := by
  have hlog := log_evaluateLine (stripTerminator source)
  rw [h] at hlog
  simp only [calculate, h, hlog]
  rfl

theorem records_of_error [Limits] {e : ExprError}
    (h : (evaluateLine (stripTerminator source)).result = .error e) :
    (calculate source).2 = readingRecords (α := Float) (stripTerminator source) (.error e) ++
      [failureRecord (stripTerminator source) e] := by
  have hlog := log_evaluateLine (stripTerminator source)
  rw [h] at hlog
  simp only [calculate, h, hlog]

/-- A fault that is reported for a line is the first one of its text. -/
theorem tokenize_of_lexical [Limits] {e : LexicalError}
    (h : (evaluateLine source).result = .error (.lexical e)) : tokenize source = .error e := by
  cases hread : (readLine source).result with
  | ok t =>
      rw [evaluateLine_of_ok hread] at h
      cases (isWellFormed_of_readLine hread).error_eq_tooDeep h
  | error error =>
      cases h.symm.trans (evaluateLine_of_error hread)
      obtain ⟨ts, -, -, htoken | ⟨-, ⟨fault, hfault⟩, -⟩ | ⟨-, fault, hfault, he⟩⟩ :=
        exists_fails_of_readLine hread (by simp)
      · obtain ⟨u, fault, -, hfault, -⟩ := htoken
        cases hfault
      · cases hfault
      · cases he
        exact hfault

/-- What comes of a line, the outcome that is answered for it, and everything that is told about
it. -/
inductive IsTold (line : List Char) : Except ExprError Float → Outcome → List Record → Prop
  | value (x : Float) :
      IsTold line (.ok x) { source := line, value := some x }
        [⟨.debug, "calcula.core.expression_lang.calculator",
          "Evaluated " ++ Text.quoted (String.ofList line) ++ " = " ++ numberText x⟩]
  | refused (fault : GrammarFault) (position : Int) :
      IsTold line (.error (.grammatical fault position))
        { source := line, error := some fault.message, position := some position }
        [⟨.debug, "calcula.core.expression_lang.parser",
          "Parse error at " ++ toString position ++ " in " ++ Text.quoted (String.ofList line) ++
            ": " ++ fault.message⟩,
        ⟨.info, "calcula.core.expression_lang.calculator",
          "Could not evaluate " ++ Text.quoted (String.ofList line) ++ ": " ++ fault.message⟩]
  | fault {e : LexicalError} (htokens : tokenize line = .error e) :
      IsTold line (.error (.lexical e))
        { source := line, error := some e.message, position := some (e.pos : Int) }
        [⟨.info, "calcula.core.expression_lang.calculator",
          "Could not evaluate " ++ Text.quoted (String.ofList line) ++ ": " ++ e.message⟩]
  | tooDeep :
      IsTold line (.error .tooDeep)
        { source := line, error := some "Expression is nested too deeply" }
        [⟨.info, "calcula.core.expression_lang.calculator",
          "Could not evaluate " ++ Text.quoted (String.ofList line) ++ ": " ++ "nested too deeply"⟩]

/-- The calculator tells of a value once, with the line and the value.  An objection of the reader
is told once by the reader and then once by the calculator, both with the message of the error and
the reader with its position.  A fault of the text and a line that is too deep are told once by the
calculator.  Nothing else is told. -/
theorem calculate_isTold [Limits] (source : List Char) :
    IsTold (stripTerminator source) (evaluateLine (stripTerminator source)).result
      (calculate source).1 (calculate source).2 := by
  cases hresult : (evaluateLine (stripTerminator source)).result with
  | ok x =>
      rw [outcome_of_ok hresult, records_of_ok hresult]
      exact .value x
  | error e =>
      rw [outcome_of_error hresult, records_of_error hresult]
      rcases evaluateLine_error hresult with rfl | ⟨⟨fault, rfl⟩ | ⟨fault, position, rfl⟩, -⟩
      · exact .tooDeep
      · exact .fault (tokenize_of_lexical hresult)
      · exact .refused fault position

end LineCalculator
