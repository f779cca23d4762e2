import LineCalculator.Proofs.Calculation.EntryPoints
import LineCalculator.Proofs.CommandLine.Conversation
import LineCalculator.Proofs.Reader.Message

/-!
# Two commands with one verdict

The command that shows the tree of an expression and the strict evaluation of the expression come to
their complaints in different ways: one tells the error that reading ended in where it stands in the
expression, the other calculates first and makes a new error of the outcome.  Both ways lead to the
same complaint.  A tree that was read has a value and can be shown, unless it is too deep, so the two
commands also succeed together.  What is too deep for a form in JSON is for the serializer to say.
-/

namespace LineCalculator.CommandLine

variable {expression message : String} {line : List Char} {p : Nat} {e : ExprError} {t : Expr}
  {s : Settings} {least : Severity} {output : Output} {asJson : Bool}

/-! ## What is complained about -/

/-- An error of an expression in words: its column, the expression with a mark under the position of
the error, and the message. -/
def errorText (expression : String) (p : Nat) (message : String) : String :=
  "column " ++ toString (p + 1) ++ "\n" ++
    "    | " ++ expression ++ "\n" ++
    String.ofList (List.replicate (p + 6) ' ') ++ "^" ++ "\n" ++
    message

/-- The command exits with code 1 and complains about the error that calculating finds in the
expression, less sequences that steer a terminal. -/
structure Complains [Limits] (expression : String) (p : Nat) (message : String) (output : Output) :
    Prop where
  position_eq : (calculate expression.toList).1.position = some (p : Int)
  error_eq : (calculate expression.toList).1.error = some message
  position_le : p ≤ expression.toList.length
  ending_eq : output.ending = .exit 1
  complaints_eq : output.complaints =
    "Error: " ++ plain (errorText expression p message) ++ "\n"
  complaints_eq_of_plain : escape ∉ expression.toList →
    output.complaints = "Error: " ++ errorText expression p message ++ "\n"

theorem snippet_eq (expression : String) (p : Nat) :
    Place.snippet ⟨p, some expression.toList⟩ =
      "    | " ++ expression ++ "\n" ++ String.ofList (List.replicate (p + 6) ' ') ++ "^" := by
  have hmargin : "    | ".toList = Place.margin := by decide +kernel
  have hfeed : "\n".toList = ['\n'] := by decide +kernel
  have hmark : "^".toList = ['^'] := by decide +kernel
  have hwidth : (Place.margin.length + (p : Int)).toNat = p + 6 := by
    change ((6 : Int) + p).toNat = p + 6
    omega
  rw [Place.snippet, hwidth, ← String.toList_inj]
  simp only [String.toList_append, String.toList_ofList, hmargin, hfeed, hmark, List.append_assoc,
    List.cons_append, List.nil_append]

theorem text_about (expression : String) (p : Nat) (message : String) :
    (Diagnostic.about message expression.toList (some p)).text =
      errorText expression p message := by
  have htext : (Diagnostic.about message expression.toList (some p)).text =
      "column " ++ toString (p + 1) ++ "\n" ++ Place.snippet ⟨p, some expression.toList⟩ ++ "\n" ++
        message := rfl
  have hassoc : ∀ before margin source feed spaces mark : String,
      before ++ (margin ++ source ++ feed ++ spaces ++ mark) =
        before ++ margin ++ source ++ feed ++ spaces ++ mark := by
    simp only [String.append_assoc, implies_true]
  rw [htext, snippet_eq, hassoc]
  rfl

/-- The text has an escape character only if the expression has one. -/
theorem escape_notMem_errorText (hexpression : escape ∉ expression.toList)
    (hmessage : IsVisible message) (p : Nat) :
    escape ∉ (errorText expression p message).toList := by
  have hcolumn : escape ∉ (toString (p + 1)).toList := by
    intro h
    have hdigit : escape.isDigit = true := by
      refine Nat.isDigit_of_mem_toDigits (b := 10) (n := p + 1) (by decide) (by decide) ?_
      simpa using h
    exact absurd hdigit (by decide)
  have hspaces : escape ∉ List.replicate (p + 6) ' ' := by
    simp [escape]
  have hmessage : escape ∉ message.toList := fun h => absurd (hmessage escape h) (by decide)
  have hlabel : escape ∉ "column ".toList := by decide +kernel
  have hmargin : escape ∉ "    | ".toList := by decide +kernel
  have hfeed : escape ∉ "\n".toList := by decide +kernel
  have hmark : escape ∉ "^".toList := by decide +kernel
  delta errorText
  simp only [String.toList_append, String.toList_ofList, List.mem_append, hlabel, hcolumn, hfeed,
    hmargin, hexpression, hspaces, hmark, hmessage, or_self, not_false_eq_true]

theorem withSource_diagnostic (e : ExprError) (source : List Char) :
    e.diagnostic.withSource source = .about e.message source e.position? := by
  rw [ExprError.diagnostic]
  cases e.position? <;> rfl

/-! ## The two commands -/

theorem showTree_of_error [Limits] (h : (readLine line).result = .error e) (asJson : Bool) :
    showTree line asJson =
      ⟨[complain (Diagnostic.about e.message line e.position?).text], .exit 1⟩ := by
  rw [← withSource_diagnostic]
  simp only [showTree, h]
  rfl

/-- If a tree is read, it has the form that is asked for.  The serializer of the form in JSON may
refuse a tree that has a value and a written form. -/
def HasShownForm [Limits] (line : List Char) (asJson : Bool) : Prop :=
  ∀ t, (readLine line).result = .ok t →
    (if asJson then t.json? (some 2) else t.text?).isSome = true

instance [Limits] (line : List Char) (asJson : Bool) : Decidable (HasShownForm line asJson) :=
  match h : (readLine line).result with
  | .ok t =>
    decidable_of_iff ((if asJson then t.json? (some 2) else t.text?).isSome = true)
      ⟨fun hform _ h' => Except.ok.inj (h.symm.trans h') ▸ hform, fun hform => hform t h⟩
  | .error _ => isTrue fun _ h' => nomatch h.symm.trans h'

theorem showTree_of_hasShownForm [Limits] (h : (readLine line).result = .ok t)
    (hform : HasShownForm line asJson) :
    ∃ text, showTree line asJson = ⟨[say text], .exit 0⟩ := by
  obtain ⟨text, htext⟩ := Option.isSome_iff_exists.mp (hform t h)
  refine ⟨text, ?_⟩
  rw [showTree, h]
  cases asJson with
  | false =>
      rw [if_neg Bool.false_ne_true] at htext
      simp only [Bool.false_eq_true, if_false, showText, htext]
  | true =>
      rw [if_pos rfl] at htext
      simp only [if_true, showJson, htext]

theorem evaluate_of_failure [Limits] (hstrict : s.strict = true) (hline : line.getLast? ≠ some '\n')
    (h : (evaluateLine line).result = .error e) (least : Severity) :
    evaluate s least line = ⟨told least (calculate line).2 ++
      [complain (Diagnostic.about e.message line e.position?).text], .exit 1⟩ := by
  rw [evaluate_eq, report, hstrict, calculate_eq_failure hline h]
  rfl

/-- A line is read as a tree that has a value, or the same error with a position keeps it from being
read and from having a value. -/
theorem line_cases [Limits] (hdeep : (evaluateLine line).result ≠ .error .tooDeep) :
    (∃ t x, (readLine line).result = .ok t ∧ (evaluateLine line).result = .ok x) ∨
    ∃ (e : ExprError) (p : Nat), (readLine line).result = .error e ∧
      (evaluateLine line).result = .error e ∧ e.position? = some (p : Int) ∧ p ≤ line.length := by
  cases hread : (readLine line).result with
  | ok t =>
      have hvalue := evaluateLine_of_ok hread
      have heval : t.eval ≠ .error .tooDeep := by
        intro h
        rw [h] at hvalue
        exact hdeep hvalue
      obtain ⟨x, hx⟩ := (isWellFormed_of_readLine hread).exists_eval heval
      rw [hx] at hvalue
      exact Or.inl ⟨t, x, rfl, hvalue⟩
  | error e =>
      have hvalue := evaluateLine_of_error hread
      rcases evaluateLine_error hvalue with rfl | ⟨-, p, hp, hnonneg, hle⟩
      · exact absurd hvalue hdeep
      · obtain ⟨n, rfl⟩ := Int.eq_ofNat_of_zero_le hnonneg
        exact Or.inr ⟨e, n, rfl, hvalue, hp, Int.ofNat_le.mp hle⟩

/-- An output that tells the error of an expression complains about what calculating finds. -/
theorem complains_of_error [Limits] (hline : expression.toList.getLast? ≠ some '\n')
    (hread : (readLine expression.toList).result = .error e)
    (hvalue : (evaluateLine expression.toList).result = .error e)
    (hposition : e.position? = some (p : Int)) (hle : p ≤ expression.toList.length)
    (hending : output.ending = .exit 1)
    (hcomplaints : output.complaints = "Error: " ++
      plain (Diagnostic.about e.message expression.toList e.position?).text ++ "\n") :
    Complains expression p e.message output := by
  have houtcome := calculate_eq_failure hline hvalue
  rw [hposition, text_about] at hcomplaints
  refine ⟨?_, ?_, hle, hending, hcomplaints, ?_⟩
  · rw [houtcome]
    exact hposition
  · rw [houtcome]
    rfl
  · intro hescape
    have hvisible := isVisible_message_of_readLine hread
    rw [hcomplaints, plain_eq_self (escape_notMem_errorText hescape hvisible p)]

/-! ## The verdict -/

variable {around around' : Surroundings} {words words' : List String}
  {level level' file : Option String} {precision : Option Nat}

theorem IsEffective.strict_eq [Limits] {strict : Bool}
    (hs : IsEffective around level file (some strict) precision s) : s.strict = strict := by
  obtain ⟨table, -, rfl⟩ := hs.layers
  rfl

theorem run_tree_eq [Limits]
    (htree : request words' = some (.run level' (.tree expression asJson))) :
    run around' words' = showTree expression.toList asJson := by
  rw [run, htree]
  rfl

/-- An expression with a value is evaluated without complaint. -/
theorem ending_of_value [Limits] (hevaluate : request words =
      some (.run level (.evaluate expression (some true) precision file)))
    (hs : IsEffective around level file (some true) precision s) (hleast : s.level? = some least)
    (hplaces : s.precision ≤ mostPlaces) (hline : expression.toList.getLast? ≠ some '\n')
    {x : Float} (hvalue : (evaluateLine expression.toList).result = .ok x) :
    (run around words).ending = .exit 0 := by
  have hok : (calculate expression.toList).1.ok ≠ false := by
    intro h
    obtain ⟨e, he⟩ := (ok_calculate_eq_false_iff hline).mp h
    cases hvalue.symm.trans he
  have hnonneg := (withSettings_of_isEffective (fun _ _ => ⟨[], .exit 0⟩) hs hleast).1
  obtain ⟨v, hv⟩ := exists_fixedPoint hnonneg hplaces (calculatedValue expression.toList)
  rw [run_evaluate_eq hevaluate hs hleast, evaluate_of_value fun h => hok h.2, hv]
  rfl

/-- An expression that does not end in a line feed and is not too deep gets the same verdict from
the command that shows its tree and from its strict evaluation, with any settings whose number of
places is in range, if its tree has the form that is asked for.  Either both succeed, or both complain
about the error that calculating finds, in the same words. -/
theorem tree_complains_like_strict_evaluation [Limits] (hevaluate : request words =
      some (.run level (.evaluate expression (some true) precision file)))
    (htree : request words' = some (.run level' (.tree expression asJson)))
    (hs : IsEffective around level file (some true) precision s) (hleast : s.level? = some least)
    (hplaces : s.precision ≤ mostPlaces) (hline : expression.toList.getLast? ≠ some '\n')
    (hdeep : (evaluateLine expression.toList).result ≠ .error .tooDeep)
    (hform : HasShownForm expression.toList asJson) :
    ((run around' words').ending = .exit 0 ↔ (run around words).ending = .exit 0) ∧
    ((run around words).ending ≠ .exit 0 → ∃ p message,
      Complains expression p message (run around words) ∧
        Complains expression p message (run around' words')) := by
  rcases line_cases hdeep with ⟨t, x, hread, hvalue⟩ | ⟨e, p, hread, hvalue, hposition, hle⟩
  · have hending := ending_of_value hevaluate hs hleast hplaces hline hvalue
    obtain ⟨text, hshown⟩ := showTree_of_hasShownForm hread hform
    have hending' : (run around' words').ending = .exit 0 := by
      rw [run_tree_eq htree, hshown]
    exact ⟨iff_of_true hending' hending, fun h => absurd hending h⟩
  · let complaint := complain (Diagnostic.about e.message expression.toList e.position?).text
    have hrun : run around words = ⟨loadingEvents around file ++
        (told least (calculate expression.toList).2 ++ [complaint]), .exit 1⟩ := by
      rw [run_evaluate_eq hevaluate hs hleast, evaluate_of_failure hs.strict_eq hline hvalue]
      rfl
    have hcomplains : Complains expression p e.message (run around words) := by
      refine complains_of_error hline hread hvalue hposition hle ?_ ?_
      · rw [hrun]
      · rw [hrun, loadingEvents, complaints_told, complaints_told, complaints_complain]
    have hcomplains' : Complains expression p e.message (run around' words') := by
      rw [run_tree_eq htree, showTree_of_error hread]
      exact complains_of_error hline hread hvalue hposition hle rfl (complaints_complain _)
    refine ⟨iff_of_false ?_ ?_, fun _ => ⟨p, e.message, hcomplains, hcomplains'⟩⟩
    · rw [hcomplains'.ending_eq]
      decide
    · rw [hcomplains.ending_eq]
      decide

/-- A bracket is closed by the wrong kind or by its own, with settings from a file, the environment
and options. -/
theorem tree_complains_like_strict_evaluation_bracket :
    request ["--log-level", "debug", "eval", "-p", "2", "--strict", "(1+2]"] =
      some (.run (some "debug") (.evaluate "(1+2]" (some true) (some 2) none)) ∧
    request ["ast", "--json", "(1+2]"] = some (.run none (.tree "(1+2]" true)) ∧
    (∃ s, IsEffective layeredSurroundings (some "debug") none (some true) (some 2) s ∧
      s.level? = some .debug ∧ s.precision ≤ mostPlaces) ∧
    (evaluateLine "(1+2]".toList).result ≠ .error .tooDeep ∧
    HasShownForm "(1+2]".toList true ∧
    (∃ p message,
      Complains "(1+2]" p message (run layeredSurroundings
        ["--log-level", "debug", "eval", "-p", "2", "--strict", "(1+2]"]) ∧
      Complains "(1+2]" p message (run bareSurroundings ["ast", "--json", "(1+2]"])) ∧
    (evaluateLine "(1+2)".toList).result ≠ .error .tooDeep ∧
    HasShownForm "(1+2)".toList true ∧
    (run layeredSurroundings
      ["--log-level", "debug", "eval", "-p", "2", "--strict", "(1+2)"]).ending = .exit 0 ∧
    (run bareSurroundings ["ast", "--json", "(1+2)"]).ending = .exit 0 := by
  have hs : IsEffective layeredSurroundings (some "debug") none (some true) (some 2)
      { precision := 2, strict := true, logLevel := "DEBUG" } :=
    (isEffective_iff load_layeredSurroundings).mpr (by decide +kernel)
  have hleast : Settings.level? { precision := 2, strict := true, logLevel := "DEBUG" } =
      some .debug := by decide +kernel
  have hevaluate : request ["--log-level", "debug", "eval", "-p", "2", "--strict", "(1+2]"] =
      some (.run (some "debug") (.evaluate "(1+2]" (some true) (some 2) none)) := by decide +kernel
  have htree : request ["ast", "--json", "(1+2]"] = some (.run none (.tree "(1+2]" true)) := by
    decide +kernel
  have hdeep : (evaluateLine "(1+2]".toList).result ≠ .error .tooDeep := by decide +kernel
  have hform : HasShownForm "(1+2]".toList true := by decide +kernel
  have hending : (run layeredSurroundings
      ["--log-level", "debug", "eval", "-p", "2", "--strict", "(1+2]"]).ending ≠ .exit 0 := by
    decide +kernel
  have hevaluate' : request ["--log-level", "debug", "eval", "-p", "2", "--strict", "(1+2)"] =
      some (.run (some "debug") (.evaluate "(1+2)" (some true) (some 2) none)) := by decide +kernel
  have htree' : request ["ast", "--json", "(1+2)"] = some (.run none (.tree "(1+2)" true)) := by
    decide +kernel
  have hdeep' : (evaluateLine "(1+2)".toList).result ≠ .error .tooDeep := by decide +kernel
  have hform' : HasShownForm "(1+2)".toList true := by decide +kernel
  have hending' : (run layeredSurroundings
      ["--log-level", "debug", "eval", "-p", "2", "--strict", "(1+2)"]).ending = .exit 0 := by
    decide +kernel
  refine ⟨hevaluate, htree, ⟨_, hs, hleast, by decide⟩, hdeep, hform, ?_, hdeep', hform', hending',
    ?_⟩
  · exact (tree_complains_like_strict_evaluation hevaluate htree hs hleast (by decide)
      (by decide +kernel) hdeep hform).2 hending
  · exact (tree_complains_like_strict_evaluation hevaluate' htree' hs hleast (by decide)
      (by decide +kernel) hdeep' hform').1.mpr hending'

/-! ## Where the verdicts and the words differ -/

/-- More minus signs than the serializer takes, in front of a one. -/
def negatedOne : String :=
  String.ofList (List.replicate 254 '-' ++ ['1'])

/-- The complaint about an expression that steers a terminal does not show it as it is.  A value
cannot be shown in more places than a number can be printed with, though the tree can.  The
serializer refuses a tree that has a value. -/
theorem complaints_ne_errorText :
    (request ["eval", "--strict", "\x1b[1m1"] =
        some (.run none (.evaluate "\x1b[1m1" (some true) none none)) ∧
      request ["ast", "\x1b[1m1"] = some (.run none (.tree "\x1b[1m1" false)) ∧
      (∃ s, IsEffective bareSurroundings none none (some true) none s ∧
        s.level? = some .warning ∧ s.precision ≤ mostPlaces) ∧
      (calculate "\x1b[1m1".toList).1.position = some 0 ∧
      (calculate "\x1b[1m1".toList).1.error = some "Unexpected character: '\\x1b'" ∧
      (run bareSurroundings ["eval", "--strict", "\x1b[1m1"]).complaints ≠
        "Error: " ++ errorText "\x1b[1m1" 0 "Unexpected character: '\\x1b'" ++ "\n" ∧
      (run bareSurroundings ["ast", "\x1b[1m1"]).complaints ≠
        "Error: " ++ errorText "\x1b[1m1" 0 "Unexpected character: '\\x1b'" ++ "\n") ∧
    (request ["eval", "--strict", "1"] = some (.run none (.evaluate "1" (some true) none none)) ∧
      request ["ast", "1"] = some (.run none (.tree "1" false)) ∧
      (∃ s, IsEffective preciseSurroundings none none (some true) none s ∧
        s.level? = some .warning) ∧
      (run preciseSurroundings ["ast", "1"]).ending = .exit 0 ∧
      (run preciseSurroundings ["eval", "--strict", "1"]).ending ≠ .exit 0) ∧
    request ["eval", "--strict", "--", negatedOne] =
        some (.run none (.evaluate negatedOne (some true) none none)) ∧
      request ["ast", "--json", "--", negatedOne] = some (.run none (.tree negatedOne true)) ∧
      (run bareSurroundings ["ast", "--json", "--", negatedOne]).ending = .aborted .serializer ∧
      (run bareSurroundings ["eval", "--strict", "--", negatedOne]).ending = .exit 0 := by
  have hload : (Settings.load bareSurroundings.folder bareSurroundings.environment none).1 =
      .ok {} := by
    decide +kernel
  have hload' : (Settings.load preciseSurroundings.folder preciseSurroundings.environment none).1 =
      .ok { precision := 2147483648 } := by
    decide +kernel
  have hs : IsEffective bareSurroundings none none (some true) none { strict := true } :=
    (isEffective_iff hload).mpr rfl
  have hs' : IsEffective preciseSurroundings none none (some true) none
      { precision := 2147483648, strict := true } :=
    (isEffective_iff hload').mpr rfl
  refine ⟨?_, ?_, ?_⟩
  · exact ⟨by decide +kernel, by decide +kernel, ⟨_, hs, by decide +kernel, by decide⟩,
      by decide +kernel⟩
  · exact ⟨by decide +kernel, by decide +kernel, ⟨_, hs', by decide +kernel⟩, by decide +kernel,
      by decide +kernel⟩
  · exact ⟨by decide +kernel, by decide +kernel, by decide +kernel, by decide +kernel⟩

end LineCalculator.CommandLine
