import LineCalculator.Calculator
import LineCalculator.Proofs.Lexical.Cursor
import LineCalculator.Proofs.Reader.Agreement
import LineCalculator.Proofs.Reader.Completeness

/-!
# Reading a line

Unless its frames run out, reading a line is one settled run over the words of its pieces.  A tree is
answered exactly when it derives from the tokens, and a failure other than that of depth stands at the
first lexeme with which no line goes on.
-/

namespace LineCalculator

/-- What is answered for a verdict when a refusal stands at the given place. -/
def Verdict.answer (place : Int) : Verdict Expr → Except ExprError Expr
  | read e => .ok e
  | failed (.lexical e) => .error (.lexical e)
  | failed (.refused fault) => .error (.grammatical fault place)
  | failed .tooDeep => .error .tooDeep

/-- The reader of lines without frames. -/
def lineReader (d : Nat) : Parser Expr :=
  Parser.line (Parser.operand d)

/-- More levels than there are frames. -/
def Limits.levels [Limits] : Nat :=
  Limits.readingFrames + 1

variable {source : List Char} {before after : List Piece} {ending : Option LexicalError}
  {l : Lexer} {production : Production} {ws rest : List Word} {v : Verdict Expr}

/-! ## Answers -/

theorem agreesWith_production [Limits] (production : Production) :
    AgreesWith (production.procedure.unframed Limits.levels) production.parser := by
  refine agreesWith_reader production.procedure ?_
  cases production <;> simp [Production.frames, Limits.levels]

theorem locate_eq_tooDeep_iff (l : Lexer) (failure : ReadFailure) :
    l.locate failure = .tooDeep ↔ failure.isCut = true := by
  cases failure <;> simp [Lexer.locate, ReadFailure.isCut]

theorem parse_eq_tooDeep_iff [Limits] :
    (l.parse production).result = .error .tooDeep ↔ IsCut (production.parser l.input) := by
  rw [Lexer.parse]
  cases production.parser l.input with
  | ok e rest => simp [IsCut]
  | error failure rest => simp [IsCut, locate_eq_tooDeep_iff]

theorem parser_of_runs [Limits] (production : Production) (hwords : l.words = (ws, ending))
    (hruns : Runs (production.procedure.unframed Limits.levels) ws ending v rest) :
    IsCut (production.parser l.input) ∨ production.parser l.input = v.result rest ending [] := by
  refine (agreesWith_production production l.input).imp id fun heq => ?_
  rw [← heq, Lexer.input, hwords]
  exact hruns []

/-- Unless its frames run out a lexer answers as the run over its words does, and moves on to where
the run stops. -/
theorem parse_of_runs [Limits] (hwords : l.words = (ws, ending))
    (hruns : Runs (production.procedure.unframed Limits.levels) ws ending v rest) :
    IsCut (production.parser l.input) ∨
      ((l.parse production).result = v.answer (l.leaving rest.length).place ∧
        (l.parse production).lexer = l.leaving rest.length) := by
  refine (parser_of_runs production hwords hruns).imp id fun hrun => ?_
  rw [Lexer.parse, hrun]
  cases v with
  | read e => exact ⟨rfl, rfl⟩
  | failed failure => cases failure <;> exact ⟨rfl, rfl⟩

/-- A lexer over a source that has looked for one token. -/
def Lexer.primed (source : List Char) : Lexer :=
  (Lexer.ofSource source).next

theorem IsMadeOf.words_primed {ps : List Piece} (h : IsMadeOf 0 source ps ending) :
    (Lexer.primed source).words = (ps.map Piece.word, ending) := by
  have hfaces : (Lexer.ofSource source).Faces ps ending := h
  exact hfaces.words_next

theorem IsMadeOf.leaving_primed (h : IsMadeOf 0 source (before ++ after) ending) :
    (Lexer.primed source).leaving (after.map Piece.word).length =
      (Lexer.ofSource source).steps (before.length + 1) := by
  rw [Lexer.leaving, h.words_primed, List.length_map, List.length_map, List.length_append,
    Nat.add_sub_cancel]
  rfl

/-- A run over the words of the pieces of a source is answered with its place in the source. -/
theorem IsMadeOf.parse_primed [Limits] (production : Production)
    (h : IsMadeOf 0 source (before ++ after) ending)
    (hruns : Runs (production.procedure.unframed Limits.levels) ((before ++ after).map Piece.word)
      ending v (after.map Piece.word)) :
    IsCut (production.parser (Lexer.primed source).input) ∨
      (((Lexer.primed source).parse production).result =
          v.answer (placeOf source (spelledLength before) after) ∧
        ((Lexer.primed source).parse production).lexer =
          (Lexer.ofSource source).steps (before.length + 1)) := by
  have hfaces : (Lexer.ofSource source).Faces (before ++ after) ending := h
  have hplace : ((Lexer.ofSource source).steps (before.length + 1)).place =
      placeOf source (spelledLength before) after := by
    rw [hfaces.place_steps]
    exact congrArg (placeOf source · after) (Nat.zero_add _)
  have hparse := parse_of_runs h.words_primed hruns
  rwa [h.leaving_primed, hplace] at hparse

/-! ## The first token -/

/-- A fault in front is reported by the procedure for expressions if there are frames for the
complaint. -/
theorem reader_expr_of_fault {frames : Nat} (hframes : complaintFrames < frames) (e : LexicalError)
    (refusals : List Refusal) :
    Procedure.expr.reader frames ⟨[], some e, refusals⟩ =
      .error (.lexical e) ⟨[], some e, refusals⟩ := by
  obtain ⟨frames, rfl⟩ : ∃ k, frames = k + 1 := ⟨frames - 1, by omega⟩
  refine bind_of_error ?_
  rw [checkEndingWithin_apply, if_neg (by omega)]
  rfl

theorem complaintFrames_lt_readingFrames [Limits] : complaintFrames < Limits.readingFrames :=
  Nat.lt_of_lt_of_le (by decide) Limits.sixteen_le_readingFrames

/-- A lexer that holds nothing because of a fault reports it when an expression or a line is read, and
stays where it is. -/
theorem parse_of_fault [Limits] {e : LexicalError} (hwords : l.words = ([], some e))
    (hproduction : production = .line ∨ production = .expr) :
    l.parse production = ⟨.error (.lexical e), l, []⟩ := by
  have hexpr := reader_expr_of_fault complaintFrames_lt_readingFrames e []
  have hresult : production.parser l.input = .error (.lexical e) ⟨[], some e, []⟩ := by
    rw [Lexer.input, hwords]
    rcases hproduction with rfl | rfl
    · exact bind_of_error hexpr
    · exact hexpr
  rw [Lexer.parse, hresult]
  simp only [Lexer.locate, Lexer.failing, Lexer.leaving, hwords, Lexer.told, List.map_nil,
    List.length_nil, Nat.sub_self, Lexer.steps]

/-- A line is read from the lexer that has looked for the first token, also if it met a fault. -/
theorem readLine_eq_parse [Limits] (source : List Char) :
    readLine source = (Lexer.primed source).parse .line := by
  cases herror : (Lexer.ofSource source).next.error with
  | none => simp [readLine, Lexer.advance, Lexer.primed, herror]
  | some e =>
      obtain ⟨ps, ending, hmade⟩ := exists_isMadeOf 0 source
      have hfaces : (Lexer.ofSource source).Faces ps ending := hmade
      cases ps with
      | cons p ps =>
          rw [hfaces.next_cons.1] at herror
          cases herror
      | nil =>
          have hending : ending = some e := hfaces.next_nil.2.2.symm.trans herror
          have hwords : (Lexer.primed source).words = ([], some e) := by
            rw [hmade.words_primed, hending]
            rfl
          rw [parse_of_fault hwords (Or.inl rfl)]
          simp [readLine, Lexer.advance, Lexer.primed, herror]

/-- Unless the frames run out a line is read by running the reader of lines over the words of its
pieces. -/
theorem readLine_result [Limits] (h : IsMadeOf 0 source (before ++ after) ending)
    (hruns : Runs (lineReader Limits.levels) ((before ++ after).map Piece.word) ending v
      (after.map Piece.word)) :
    IsCut (Production.line.parser (Lexer.primed source).input) ∨
      (readLine source).result = v.answer (placeOf source (spelledLength before) after) := by
  rw [readLine_eq_parse]
  exact (h.parse_primed .line hruns).imp id And.left

/-- Unless it is too deep, every line is taken apart into pieces that were used up and pieces that
were not; its run is settled, and its verdict is right. -/
theorem exists_readLine [Limits] (hdeep : (readLine source).result ≠ .error .tooDeep) :
    ∃ before after ending v, IsMadeOf 0 source (before ++ after) ending ∧
      Settles lineReader Limits.levels (before.map Piece.word) (after.map Piece.word) ending v ∧
      v.IsRightLine (before.map Piece.word) (after.map Piece.word) ending ∧
      (readLine source).result = v.answer (placeOf source (spelledLength before) after) := by
  obtain ⟨ps, ending, hmade⟩ := exists_isMadeOf 0 source
  obtain ⟨used, rest, v, hsplit, hsettles, hright⟩ :=
    exists_settles_line Limits.levels (ps.map Piece.word) ending
  obtain ⟨before, after, rfl, rfl, rfl⟩ := List.map_eq_append_iff.mp hsplit
  have hruns := hsettles.runs
  rw [← List.map_append] at hruns
  refine ⟨before, after, ending, v, hmade, hsettles, hright, ?_⟩
  refine (readLine_result hmade hruns).resolve_left fun hcut => hdeep ?_
  rw [readLine_eq_parse]
  exact parse_eq_tooDeep_iff.mpr hcut

/-! ## Which lines are read -/

/-- A tree that is answered derives from all tokens. -/
theorem derives_of_readLine [Limits] {t : Expr} (h : (readLine source).result = .ok t) :
    ∃ ts, tokenize source = .ok ts ∧ Derives (ts.map (Token.word source)) t := by
  have hdeep : (readLine source).result ≠ .error .tooDeep := by simp [h]
  obtain ⟨before, after, ending, v, hmade, hsettles, hright, hresult⟩ := exists_readLine hdeep
  rw [hresult] at h
  cases v with
  | failed failure => cases failure <;> cases h
  | read e =>
      cases h
      obtain ⟨hafter, rfl, hderives⟩ := hright
      refine ⟨_, hmade.tokenize_eq_ok, ?_⟩
      rw [hmade.words_of_tokens, List.map_append, hafter, List.append_nil]
      exact hderives

/-- A tree that derives from all tokens is answered, unless the line is too deep. -/
theorem readLine_of_derives [Limits] {ts : List Token} {t : Expr}
    (htokens : tokenize source = .ok ts)
    (hderives : Derives (ts.map (Token.word source)) t)
    (hdeep : (readLine source).result ≠ .error .tooDeep) : (readLine source).result = .ok t := by
  obtain ⟨before, after, ending, v, hmade, hsettles, hright, hresult⟩ := exists_readLine hdeep
  cases ending with
  | some e => cases htokens.symm.trans hmade.tokenize_eq_error
  | none =>
      cases htokens.symm.trans hmade.tokenize_eq_ok
      rw [hmade.words_of_tokens, List.map_append] at hderives
      cases v with
      | read e =>
          obtain ⟨hafter, -, hderives'⟩ := hright
          rw [hafter, List.append_nil] at hderives
          rw [hresult, hderives'.unique hderives]
          rfl
      | failed failure =>
          refine absurd hderives (hsettles.not_derives ?_ (.refl _ _))
          rintro rfl
          exact hdeep hresult

/-- A line is read as a tree exactly when its tokens derive the tree, unless it is too deep, and
words derive at most one tree. -/
theorem readLine_eq_ok_iff_derives [Limits] (source : List Char) :
    ((readLine source).result ≠ .error .tooDeep → ∀ t, ((readLine source).result = .ok t ↔
      ∃ ts, tokenize source = .ok ts ∧ Derives (ts.map (Token.word source)) t)) ∧
      ∀ ws t t', Derives ws t → Derives ws t' → t = t' := by
  refine ⟨?_, fun ws t t' h h' => h.unique h'⟩
  intro hdeep t
  constructor
  · exact derives_of_readLine
  · rintro ⟨ts, htokens, hderives⟩
    exact readLine_of_derives htokens hderives hdeep

/-- A minus sign in front of a function whose bare argument takes in the power behind it. -/
theorem readLine_eq_ok_iff_derives_bareArgument :
    ∃ ts, tokenize ['-', 'l', 'b', ' ', '2', '^', '3'] = .ok ts ∧
      Derives (ts.map (Token.word ['-', 'l', 'b', ' ', '2', '^', '3']))
        (.unary .neg (.call "lb" (.binary .pow (.number 2) (.number 3)))) :=
  ((readLine_eq_ok_iff_derives ['-', 'l', 'b', ' ', '2', '^', '3']).1 (by decide +kernel)
    (.unary .neg (.call "lb" (.binary .pow (.number 2) (.number 3))))).mp (by decide +kernel)

/-! ## Where reading fails -/

/-- The tokens of a source up to its end or its first fault. -/
def tokensOf (source : List Char) : List Token :=
  (scanAll 0 source).1.map Prod.fst

/-- Words with which the words of some line begin. -/
def IsLinePrefix (ws : List Word) : Prop :=
  ∃ line ts t, tokenize line = .ok ts ∧ Derives (ts.map (Token.word line)) t ∧
    ws <+: ts.map (Token.word line)

/-- The error stands at the token behind some tokens, with which no line goes on. -/
def FailsAtToken (source : List Char) (before : List Token) (e : ExprError) : Prop :=
  ∃ u fault, before ++ [u] <+: tokensOf source ∧ e = .grammatical fault u.start ∧
    ¬ IsLinePrefix ((before ++ [u]).map (Token.word source))

/-- The error stands at the end of a source whose tokens are not a whole line. -/
def FailsAtEnd (source : List Char) (before : List Token) (e : ExprError) : Prop :=
  tokenize source = .ok before ∧ (∃ fault, e = .grammatical fault source.length) ∧
    ∀ t, ¬ Derives (before.map (Token.word source)) t

/-- The error is the fault that ends the tokens of a source. -/
def FailsAtFault (source : List Char) (before : List Token) (e : ExprError) : Prop :=
  before = tokensOf source ∧ ∃ fault, tokenize source = .error fault ∧ e = .lexical fault

theorem IsLinePrefix.of_append {ws more : List Word} (h : IsLinePrefix (ws ++ more)) :
    IsLinePrefix ws := by
  obtain ⟨line, ts, t, htokens, hderives, hbegins⟩ := h
  exact ⟨line, ts, t, htokens, hderives, (List.prefix_append ws more).trans hbegins⟩

theorem IsSpelling.isLexical {ps : List Piece} {rest : List Char} (h : IsSpelling ps rest) :
    ∀ w ∈ ps.map Piece.word, w.IsLexical := by
  induction ps with
  | nil => simp
  | cons p ps ih =>
      obtain ⟨-, htext, -, hrest⟩ := h
      exact List.forall_mem_cons.mpr ⟨⟨htext, rfl⟩, ih hrest⟩

theorem IsMadeOf.isLexical {ps : List Piece} (h : IsMadeOf 0 source ps ending) :
    ∀ w ∈ ps.map Piece.word, w.IsLexical := by
  obtain ⟨rest, -, hspelling, -⟩ := h
  exact hspelling.isLexical

theorem IsMadeOf.isLexical_before (h : IsMadeOf 0 source (before ++ after) ending) :
    ∀ w ∈ before.map Piece.word, w.IsLexical := by
  intro w hw
  refine h.isLexical w ?_
  rw [List.map_append]
  exact List.mem_append_left _ hw

/-- Lexemes that can be completed to a sum begin a line. -/
theorem Completable.isLinePrefix {ws : List Word} (h : Completable .sum ws)
    (hws : ∀ w ∈ ws, w.IsLexical) : IsLinePrefix ws := by
  obtain ⟨more, e, hmore, hphrase⟩ := h
  have hall : ∀ w ∈ ws ++ more, w.IsLexical := by
    simpa [or_imp, forall_and] using ⟨hws, hmore⟩
  obtain ⟨line, ts, htokens, hwords⟩ := exists_line (ws ++ more) hall
  refine ⟨line, ts, e, htokens, ?_, ?_⟩
  · rw [hwords]
    exact hphrase
  · rw [hwords]
    exact List.prefix_append ws more

theorem IsMadeOf.tokensOf_eq {ps : List Piece} (h : IsMadeOf 0 source ps ending) :
    tokensOf source = (spelledTokens 0 ps).map Prod.fst := by
  rw [tokensOf, h.scanAll_eq]

/-- A source without a fault has no other tokens. -/
theorem tokensOf_eq_of_tokenize {ts : List Token} (h : tokenize source = .ok ts) :
    tokensOf source = ts := by
  obtain ⟨ps, ending, hmade⟩ := exists_isMadeOf 0 source
  cases ending with
  | none =>
      cases hmade.tokenize_eq_ok.symm.trans h
      exact hmade.tokensOf_eq
  | some e => cases hmade.tokenize_eq_error.symm.trans h

theorem IsMadeOf.words_tokensOf {ps : List Piece} (h : IsMadeOf 0 source ps ending) :
    (tokensOf source).map (Token.word source) = ps.map Piece.word := by
  rw [h.tokensOf_eq, h.words_of_tokens]

theorem IsMadeOf.words_of_before (h : IsMadeOf 0 source (before ++ after) ending) :
    ((spelledTokens 0 before).map Prod.fst).map (Token.word source) = before.map Piece.word := by
  have hwords := h.words_of_tokens
  rw [spelledTokens_append, List.map_append, List.map_append, List.map_append] at hwords
  exact (List.append_inj hwords (by simp [length_spelledTokens])).1

/-- A piece behind others is the next token of the source. -/
theorem IsMadeOf.begins_tokensOf {p : Piece}
    (h : IsMadeOf 0 source (before ++ p :: after) ending) :
    (spelledTokens 0 before).map Prod.fst ++ [p.token (spelledLength before)] <+:
      tokensOf source := by
  rw [h.tokensOf_eq, spelledTokens_append, List.map_append, List.prefix_append_right_inj,
    spelledTokens, List.map_cons, Nat.zero_add]
  exact List.prefix_append [_] _

/-- No line goes on with the piece that is left at a refusal. -/
theorem IsMadeOf.not_isLinePrefix {p : Piece} {fault : GrammarFault} {d : Nat}
    (hmade : IsMadeOf 0 source (before ++ p :: after) ending)
    (hsettles : Settles lineReader d (before.map Piece.word) ((p :: after).map Piece.word) ending
      (.failed (.refused fault))) :
    ¬ IsLinePrefix (((spelledTokens 0 before).map Prod.fst ++
      [p.token (spelledLength before)]).map (Token.word source)) := by
  have hmade' : IsMadeOf 0 source ((before ++ [p]) ++ after) ending := by simpa using hmade
  have hbefore : (spelledTokens 0 before).map Prod.fst ++ [p.token (spelledLength before)] =
      (spelledTokens 0 (before ++ [p])).map Prod.fst := by
    simp [spelledTokens_append, spelledTokens]
  rw [hbefore, hmade'.words_of_before]
  rintro ⟨line, ts, t, -, hderives, more, hmore⟩
  rw [← hmore, List.map_append, List.append_assoc] at hderives
  have hfront : SameFront ((p :: after).map Piece.word) ([p.word] ++ more) ending none :=
    ⟨rfl, by simp⟩
  exact hsettles.not_derives (by simp) hfront hderives

/-- What was used up before a failure begins a line, and the failure stands at the next lexeme. -/
theorem exists_fails_of_settles {d : Nat} {failure : Failure} (hfailure : failure ≠ .tooDeep)
    (hmade : IsMadeOf 0 source (before ++ after) ending)
    (hsettles : Settles lineReader d (before.map Piece.word) (after.map Piece.word) ending
      (.failed failure))
    (hfails : FailsAt (Completable .sum (before.map Piece.word)) (after.map Piece.word) ending
      failure) {e : ExprError}
    (he : Verdict.answer (placeOf source (spelledLength before) after) (.failed failure) =
      .error e) :
    IsLinePrefix (before.map Piece.word) ∧
      (FailsAtToken source ((spelledTokens 0 before).map Prod.fst) e ∨
        FailsAtEnd source ((spelledTokens 0 before).map Prod.fst) e ∨
        FailsAtFault source ((spelledTokens 0 before).map Prod.fst) e) := by
  have hlexical := hmade.isLexical_before
  cases hfails with
  | tooDeep => exact absurd rfl hfailure
  | lexical hcompletable hrest hending =>
      cases he
      obtain rfl := List.map_eq_nil_iff.mp hrest
      subst hending
      rw [List.append_nil] at hmade
      exact ⟨hcompletable.isLinePrefix hlexical,
        Or.inr (Or.inr ⟨hmade.tokensOf_eq.symm, _, hmade.tokenize_eq_error, rfl⟩)⟩
  | refused hcompletable hclear =>
      cases he
      refine ⟨hcompletable.isLinePrefix hlexical, ?_⟩
      cases after with
      | cons p after =>
          exact Or.inl ⟨_, _, hmade.begins_tokensOf, rfl, hmade.not_isLinePrefix hsettles⟩
      | nil =>
          obtain rfl := hclear rfl
          have hwords := hmade.words_of_before
          rw [List.append_nil] at hmade
          refine Or.inr (Or.inl ⟨hmade.tokenize_eq_ok, ⟨_, rfl⟩, ?_⟩)
          intro t hderives
          rw [hwords, ← List.append_nil (before.map Piece.word)] at hderives
          exact hsettles.not_derives (by simp) (.refl _ _) hderives

/-! The three ways of failing exclude each other. -/

theorem FailsAtToken.not_failsAtEnd {ts : List Token} {e : ExprError}
    (h : FailsAtToken source ts e) : ¬ FailsAtEnd source ts e := by
  obtain ⟨u, fault, hbegins, -⟩ := h
  rintro ⟨htokens, -⟩
  have hall := tokensOf_eq_of_tokenize htokens
  have hlength := hbegins.length_le
  rw [hall, List.length_append, List.length_singleton] at hlength
  omega

theorem not_failsAtFault {ts : List Token} {fault : GrammarFault} {position : Int} :
    ¬ FailsAtFault source ts (.grammatical fault position) := by
  rintro ⟨-, fault', -, he⟩
  cases he

theorem FailsAtToken.not_failsAtFault {ts : List Token} {e : ExprError}
    (h : FailsAtToken source ts e) : ¬ FailsAtFault source ts e := by
  obtain ⟨u, fault, -, rfl, -⟩ := h
  exact LineCalculator.not_failsAtFault

theorem FailsAtEnd.not_failsAtFault {ts : List Token} {e : ExprError}
    (h : FailsAtEnd source ts e) : ¬ FailsAtFault source ts e := by
  obtain ⟨-, ⟨fault, rfl⟩, -⟩ := h
  exact LineCalculator.not_failsAtFault

/-- What precedes the lexeme at which reading fails begins a line, and the failure stands at this
lexeme. -/
theorem exists_fails_of_readLine [Limits] {e : ExprError} (h : (readLine source).result = .error e)
    (hdeep : e ≠ .tooDeep) :
    ∃ ts, ts <+: tokensOf source ∧ IsLinePrefix (ts.map (Token.word source)) ∧
      (FailsAtToken source ts e ∨ FailsAtEnd source ts e ∨ FailsAtFault source ts e) := by
  have hdeep' : (readLine source).result ≠ .error .tooDeep := by simp [h, hdeep]
  obtain ⟨before, after, ending, v, hmade, hsettles, hright, hresult⟩ := exists_readLine hdeep'
  rw [hresult] at h
  cases v with
  | read t => cases h
  | failed failure =>
      have hfailure : failure ≠ .tooDeep := by
        rintro rfl
        cases h
        exact hdeep rfl
      obtain ⟨hbegins, hfails⟩ := exists_fails_of_settles hfailure hmade hsettles hright h
      refine ⟨(spelledTokens 0 before).map Prod.fst, ?_, ?_, hfails⟩
      · rw [hmade.tokensOf_eq, spelledTokens_append, List.map_append]
        exact List.prefix_append _ _
      · rw [hmade.words_of_before]
        exact hbegins

/-- A fault of the source is reported exactly when the tokens in front of it begin a line. -/
theorem readLine_of_fault [Limits] {fault : LexicalError} (h : tokenize source = .error fault) :
    ∃ e, (readLine source).result = .error e ∧ (e ≠ .tooDeep →
      (e = .lexical fault ↔ IsLinePrefix ((tokensOf source).map (Token.word source)))) := by
  cases hresult : (readLine source).result with
  | ok t =>
      obtain ⟨ts, htokens, -⟩ := derives_of_readLine hresult
      cases h.symm.trans htokens
  | error e =>
      refine ⟨e, rfl, ?_⟩
      intro hdeep
      obtain ⟨ts, -, hviable, htoken | ⟨hend, -⟩ | ⟨rfl, fault', hfault, rfl⟩⟩ :=
        exists_fails_of_readLine hresult hdeep
      · obtain ⟨u, fault', ⟨more, hmore⟩, rfl, hnot⟩ := htoken
        constructor
        · intro he
          cases he
        · intro hall
          rw [← hmore, List.map_append] at hall
          exact absurd hall.of_append hnot
      · cases h.symm.trans hend
      · cases h.symm.trans hfault
        exact ⟨fun _ => hviable, fun _ => rfl⟩

/-- Unless a line is too deep, what precedes the lexeme at which reading fails begins some line, and
the failure stands either at a token with which no line goes on, or at the end of tokens that are
not a whole line, or is the fault of the source.  A source with a fault always fails, and with this
fault exactly when the tokens in front of the fault begin some line. -/
theorem readLine_fails_at_earliest [Limits] (source : List Char) :
    (∀ e, (readLine source).result = .error e → e ≠ .tooDeep → ∃ ts, ts <+: tokensOf source ∧
      IsLinePrefix (ts.map (Token.word source)) ∧
      ((FailsAtToken source ts e ∧ ¬ FailsAtEnd source ts e ∧ ¬ FailsAtFault source ts e) ∨
        (¬ FailsAtToken source ts e ∧ FailsAtEnd source ts e ∧ ¬ FailsAtFault source ts e) ∨
        (¬ FailsAtToken source ts e ∧ ¬ FailsAtEnd source ts e ∧ FailsAtFault source ts e))) ∧
    ∀ fault, tokenize source = .error fault → ∃ e, (readLine source).result = .error e ∧
      (e ≠ .tooDeep →
        (e = .lexical fault ↔ IsLinePrefix ((tokensOf source).map (Token.word source)))) := by
  refine ⟨?_, fun fault h => readLine_of_fault h⟩
  intro e he hdeep
  obtain ⟨ts, hbegins, hviable, hfails⟩ := exists_fails_of_readLine he hdeep
  refine ⟨ts, hbegins, hviable, ?_⟩
  rcases hfails with h | h | h
  · exact Or.inl ⟨h, h.not_failsAtEnd, h.not_failsAtFault⟩
  · exact Or.inr (Or.inl ⟨fun h' => h'.not_failsAtEnd h, h, h.not_failsAtFault⟩)
  · exact Or.inr (Or.inr ⟨fun h' => h'.not_failsAtFault h, fun h' => h'.not_failsAtFault h, h⟩)

/-- A bracket is closed by the wrong kind in front of a fault, which is not reported. -/
theorem readLine_fails_at_earliest_brackets :
    (∃ ts, ts <+: tokensOf ['(', '1', ']', '$'] ∧
      FailsAtToken ['(', '1', ']', '$'] ts
        (.grammatical (.expected .rparen (some ⟨.rbracket, [']'], 0⟩)) 2)) ∧
      ¬ IsLinePrefix ((tokensOf ['(', '1', ']', '$']).map (Token.word ['(', '1', ']', '$'])) := by
  have hresult : (readLine ['(', '1', ']', '$']).result =
      .error (.grammatical (.expected .rparen (some ⟨.rbracket, [']'], 0⟩)) 2) := by decide +kernel
  have hfault : tokenize ['(', '1', ']', '$'] = .error ⟨.unexpectedCharacter '$', 3⟩ := by
    decide +kernel
  obtain ⟨hfails, hlexical⟩ := readLine_fails_at_earliest ['(', '1', ']', '$']
  constructor
  · obtain ⟨ts, hbegins, -, ⟨h, -⟩ | ⟨-, ⟨h, -⟩, -⟩ | ⟨-, -, -, fault, -, h⟩⟩ :=
      hfails _ hresult (by simp)
    · exact ⟨ts, hbegins, h⟩
    · cases hfault.symm.trans h
    · cases h
  · obtain ⟨e, he, hiff⟩ := hlexical _ hfault
    cases hresult.symm.trans he
    intro hbegins
    cases (hiff (by simp)).mpr hbegins

end LineCalculator
