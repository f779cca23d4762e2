import LineCalculator.Proofs.Reader.Rereading

/-!
# Reading from a primed lexer

A lexer that holds the first token of a line reads one expression from it and leaves the rest.
Reading the whole line is the same run, which then asks whether anything is left.  So the two part
only where a token is left behind an expression, and that is exactly where a token follows a whole
line with which no line goes on.
-/

namespace LineCalculator

variable {d : Nat} {source : List Char} {before after : List Piece} {ts : List Token} {u : Token}
  {ending : Option LexicalError}

/-- The reader of expressions with a limit on depth. -/
def exprReader (d : Nat) : Parser Expr :=
  Parser.expr (Parser.operand d)

/-! ## Tokens behind a whole line -/

/-- A token follows the tokens of a whole line, and no line goes on with it. -/
structure Trails (source : List Char) (ts : List Token) (u : Token) : Prop where
  begins : ts ++ [u] <+: tokensOf source
  derives : ∃ t, Derives (ts.map (Token.word source)) t
  not_isLinePrefix : ¬ IsLinePrefix ((ts ++ [u]).map (Token.word source))

theorem isLexical_tokensOf (source : List Char) :
    ∀ w ∈ (tokensOf source).map (Token.word source), w.IsLexical := by
  obtain ⟨ps, ending, hmade⟩ := exists_isMadeOf 0 source
  rw [hmade.words_tokensOf]
  exact hmade.isLexical

theorem exists_operator_of_not_stops {k : Kind} (h : ¬ Stops .sum (some k)) :
    ∃ level op, Operator level k op := by
  cases k with
  | plus => exact ⟨_, _, .plus⟩
  | minus => exact ⟨_, _, .minus⟩
  | star => exact ⟨_, _, .star⟩
  | slash => exact ⟨_, _, .slash⟩
  | caret => exact ⟨_, _, .caret⟩
  | _ => exact absurd (by simp [Stops]) h

/-- In front of a word that is no operator the words of a line are read as one expression. -/
theorem Derives.runs_expr {ws : List Word} {t : Expr} {w : Word} (h : Derives ws t)
    (hstops : Stops .sum (some w.kind)) :
    ∃ depth, ∀ d ≥ depth, ∀ rest ending,
      Runs (exprReader d) (ws ++ w :: rest) ending (.read t) (w :: rest) := by
  have hcaret : some w.kind ≠ some Kind.caret := by
    intro hcaret
    simp [Stops, hcaret] at hstops
  obtain ⟨depth, hreads⟩ :=
    (Phrase.leads (h.stop hcaret) fun _ htighter => hstops.tighter htighter).reads hstops
  refine ⟨depth, ?_⟩
  intro d hd rest ending
  have hclear : IsClear (ws ++ w :: rest) ending := fun hnil => by simp at hnil
  exact .bind (runs_checkEnding hclear) (hreads d hd (w :: rest) ending rfl (isClear_cons _ _ _))

namespace Trails

theorem isLexical (h : Trails source ts u) :
    ∀ w ∈ (ts ++ [u]).map (Token.word source), w.IsLexical :=
  fun w hw => isLexical_tokensOf source w ((h.begins.map _).subset hw)

theorem isFound (h : Trails source ts u) : u.isFound = true := by
  have hword : (u.word source).IsLexical := h.isLexical _ (by simp)
  have hkind : u.kind ≠ .invalid := hword.1.kind_ne_invalid
  simpa [Token.isFound] using hkind

/-- The token is no operator, since a line goes on with any operator. -/
theorem stops (h : Trails source ts u) : Stops .sum (some u.kind) := by
  by_contra hstops
  obtain ⟨level, op, hop⟩ := exists_operator_of_not_stops hstops
  obtain ⟨t, hderives⟩ := h.derives
  have hop' : Operator level (u.word source).kind op := hop
  have hlexical := h.isLexical
  have hnot := h.not_isLinePrefix
  rw [List.map_append, List.map_singleton] at hlexical hnot
  exact hnot ((Phrase.completable_operator hop' hderives).isLinePrefix hlexical)

theorem readLine_ne_ok [Limits] (h : Trails source ts u) (t : Expr) :
    (readLine source).result ≠ .ok t := by
  intro hread
  obtain ⟨ts', htokens, hderives⟩ := derives_of_readLine hread
  refine h.not_isLinePrefix ⟨source, ts', t, htokens, hderives, ?_⟩
  rw [← tokensOf_eq_of_tokenize htokens]
  exact h.begins.map _

/-- An expression is read in front of such a token. -/
theorem runs_expr {ps : List Piece} (h : Trails source ts u) (hmade : IsMadeOf 0 source ps ending) :
    ∃ t rest depth, ∀ d ≥ depth, Runs (exprReader d) (ps.map Piece.word) ending (.read t) rest := by
  obtain ⟨t, hderives⟩ := h.derives
  obtain ⟨more, hmore⟩ := h.begins
  have hwords : ps.map Piece.word =
      ts.map (Token.word source) ++ u.word source :: more.map (Token.word source) := by
    rw [← hmade.words_tokensOf, ← hmore]
    simp
  obtain ⟨depth, hruns⟩ := hderives.runs_expr (w := u.word source) h.stops
  rw [hwords]
  exact ⟨t, _, depth, fun d hd => hruns d hd _ ending⟩

end Trails

/-- Where reading an expression fails for another reason than depth, no token follows a line. -/
theorem IsMadeOf.not_trails {failure : Failure} (hmade : IsMadeOf 0 source (before ++ after) ending)
    (hsettles : Settles exprReader d (before.map Piece.word) (after.map Piece.word) ending
      (.failed failure)) (hfailure : failure ≠ .tooDeep) : ¬ Trails source ts u := by
  intro htrails
  obtain ⟨t, rest, depth, hread⟩ := htrails.runs_expr hmade
  -- The failure is not one of depth, so it stays when the limit is raised to what the line needs.
  have hfailed := hsettles (max d depth) (Nat.le_max_left _ _)
    (fun hdeep => absurd (by simpa using hdeep) hfailure) _ _ (.refl _ _)
  rw [← List.map_append] at hfailed
  cases ((hread _ (Nat.le_max_right _ _)).unique hfailed).1

/-- Where an expression is read in front of a piece, the token of the piece follows a line. -/
theorem IsMadeOf.trails {p : Piece} {t : Expr}
    (hmade : IsMadeOf 0 source (before ++ p :: after) ending)
    (hsettles : Settles exprReader d (before.map Piece.word) ((p :: after).map Piece.word) ending
      (.read t))
    (hphrase : Phrase .sum (before.map Piece.word) (some p.kind) t) :
    Trails source ((spelledTokens 0 before).map Prod.fst) (p.token (spelledLength before)) where
  begins := hmade.begins_tokensOf
  derives := ⟨t, by
    rw [hmade.words_of_before]
    exact hphrase.stop (by simp)⟩
  not_isLinePrefix := hmade.not_isLinePrefix hsettles.line

/-! ## The two readings of a source -/

/-- There is room for the complaint about a token behind an expression, so the frames run out over a
line only where they run out over the expression. -/
theorem isCut_line_iff [Limits] (input : Input) :
    IsCut (Production.line.parser input) ↔ IsCut (Production.expr.parser input) := by
  have hroom := complaintFrames_lt_readingFrames
  change IsCut (Procedure.line.reader (Limits.readingFrames + 1) input) ↔
    IsCut (Procedure.expr.reader Limits.readingFrames input)
  rw [Procedure.reader]
  cases hresult : Procedure.expr.reader Limits.readingFrames input with
  | error failure rest => rw [bind_of_error hresult]
  | ok e rest =>
      rw [bind_of_ok hresult, peek_bind]
      cases rest.words.head? with
      | none => exact iff_of_false not_isCut_ok not_isCut_ok
      | some w =>
          dsimp only
          rw [refuseWithin_apply, if_neg (Nat.not_lt.mpr hroom.le)]
          exact iff_of_false (not_isCut_refuse _ _) not_isCut_ok

/-- Reading a source as a line compared with reading an expression from the primed lexer: both give
a tree and use up everything, or only the second does because a token follows, or both fail
alike. -/
inductive ReadsAlike [Limits] (source : List Char) : Prop
  | whole {t : Expr} (hline : (readLine source).result = .ok t)
      (hexpr : ((Lexer.primed source).parse .expr).result = .ok t)
      (hcurrent : ((Lexer.primed source).parse .expr).lexer.current = {}) : ReadsAlike source
  | trailing {t : Expr} {ts : List Token} {u : Token} {fault : GrammarFault}
      (htrails : Trails source ts u)
      (hline : (readLine source).result = .error (.grammatical fault u.start))
      (hexpr : ((Lexer.primed source).parse .expr).result = .ok t) (hreadable : IsReadable t)
      (hcurrent : ((Lexer.primed source).parse .expr).lexer.current = u) : ReadsAlike source
  | failed {e : ExprError} (hline : (readLine source).result = .error e)
      (hexpr : ((Lexer.primed source).parse .expr).result = .error e)
      (hnot : e ≠ .tooDeep → ∀ ts u, ¬ Trails source ts u) : ReadsAlike source

/-- Unless it is too deep for both readings, a source is taken apart where the primed lexer stops
reading an expression, and is read as a line from there. -/
theorem exists_parse_primed [Limits] (source : List Char) :
    (((Lexer.primed source).parse .expr).result = .error .tooDeep ∧
        (readLine source).result = .error .tooDeep) ∨
      ∃ before after ending v, IsMadeOf 0 source (before ++ after) ending ∧
        Settles exprReader Limits.levels (before.map Piece.word) (after.map Piece.word) ending v ∧
        v.IsRight .sum (before.map Piece.word) (after.map Piece.word) ending ∧
        ((Lexer.primed source).parse .expr).result =
          v.answer (placeOf source (spelledLength before) after) ∧
        ((Lexer.primed source).parse .expr).lexer.current =
          firstToken (spelledLength before) after ∧
        (readLine source).result = (v.ofLine (after.map Piece.word)).answer
          (placeOf source (spelledLength before) after) := by
  by_cases hcut : IsCut (Production.expr.parser (Lexer.primed source).input)
  · rw [readLine_eq_parse]
    exact Or.inl ⟨parse_eq_tooDeep_iff.mpr hcut,
      parse_eq_tooDeep_iff.mpr ((isCut_line_iff _).mpr hcut)⟩
  · obtain ⟨ps, ending, hmade⟩ := exists_isMadeOf 0 source
    obtain ⟨used, rest, v, hsplit, hsettles, hright⟩ :=
      exists_settles_expr Limits.levels (ps.map Piece.word) ending
    obtain ⟨before, after, rfl, rfl, rfl⟩ := List.map_eq_append_iff.mp hsplit
    have hexpr := hsettles.runs
    have hline := hsettles.line.runs
    rw [← List.map_append] at hexpr hline
    obtain ⟨hresult, hlexer⟩ := (hmade.parse_primed .expr hexpr).resolve_left hcut
    have hfaces : (Lexer.ofSource source).Faces (before ++ after) ending := hmade
    have hcurrent := hfaces.current_steps.2
    rw [Lexer.ofSource, Nat.zero_add] at hcurrent
    refine Or.inr ⟨before, after, ending, v, hmade, hsettles, hright, hresult, ?_,
      (readLine_result hmade hline).resolve_left (mt (isCut_line_iff _).mp hcut)⟩
    rw [hlexer]
    exact hcurrent

theorem readsAlike [Limits] (source : List Char) : ReadsAlike source := by
  obtain ⟨hexpr, hline⟩ | ⟨before, after, ending, v, hmade, hsettles, hright, hexpr, hcurrent,
    hline⟩ := exists_parse_primed source
  · exact .failed hline hexpr fun h => absurd rfl h
  cases v with
  | read t =>
      cases after with
      | nil => exact .whole hline hexpr hcurrent
      | cons p after =>
          obtain ⟨hphrase, -, -⟩ := hright
          exact .trailing (hmade.trails hsettles hphrase) hline hexpr
            (hphrase.isReadable hmade.isLexical_before) hcurrent
  | failed failure =>
      cases failure with
      | lexical e => exact .failed hline hexpr fun _ _ _ => hmade.not_trails hsettles (by simp)
      | refused fault => exact .failed hline hexpr fun _ _ _ => hmade.not_trails hsettles (by simp)
      | tooDeep => exact .failed hline hexpr fun h => absurd rfl h

end LineCalculator
