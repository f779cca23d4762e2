import LineCalculator.Proofs.Reader.Depth
import LineCalculator.Proofs.Reader.Primed

/-!
# Long lines

The frames that a line needs depend on what is open at once in it, and not on its length: everything
open takes up at most six, and a few are needed where nothing is open.
-/

namespace LineCalculator

variable {source : List Char} {k frames more : Nat}

/-- In front of every token of a source at most so many brackets, functions and minus signs are
open.  It is enough to look where an operand is awaited, since nothing is opened elsewhere. -/
def OpensAtMost (source : List Char) (k : Nat) : Prop :=
  ∀ before t after n, tokensOf source = before ++ t :: after →
    Awaits .sum (before.map (Token.word source)) n → n ≤ k

theorem opensAtMost_of_countP
    (h : ((tokensOf source).map (Token.word source)).countP Word.isOpener ≤ k) :
    OpensAtMost source k := by
  intro before t after n htokens hawaits
  rw [htokens, List.map_append, List.countP_append] at h
  have hle := hawaits.le_countP
  omega

/-- Where nothing follows, the last token can have opened one more. -/
theorem OpensAtMost.not_takesUp (h : OpensAtMost source k) (hk : openFrames * (k + 1) < frames) :
    ¬ TakesUp .sum ((tokensOf source).map (Token.word source)) frames := by
  intro htakes
  obtain ⟨before, w, after, n, hwords, hawaits, hle⟩ := htakes.exists_before hk
  obtain ⟨ts, ts', htokens, rfl, hts'⟩ := List.map_eq_append_iff.mp hwords
  obtain ⟨t, more, rfl, -, -⟩ := List.map_eq_cons_iff.mp hts'
  have hopen := h ts t more n htokens hawaits
  omega

theorem words_input_primed (source : List Char) :
    (Lexer.primed source).input.words = (tokensOf source).map (Token.word source) := by
  obtain ⟨ps, ending, hmade⟩ := exists_isMadeOf 0 source
  rw [Lexer.input, hmade.words_primed, hmade.words_tokensOf]

/-! ## Enough frames -/

/-- Over a source that opens so little the frames of a line do not run out. -/
theorem OpensAtMost.not_isCut (h : OpensAtMost source k)
    (hframes : openFrames * (k + 1) + Procedure.line.spareFrames < frames) :
    ¬ IsCut (Procedure.line.reader frames (Lexer.primed source).input) := by
  intro hcut
  rcases isClear_or_failed (Lexer.primed source).input.words (Lexer.primed source).input.ending with
    hclear | ⟨e, hwords, hending⟩
  · have htakes := runsOut_reader frames .line _ trivial hclear hcut
    rw [words_input_primed] at htakes
    exact h.not_takesUp (Nat.lt_sub_of_add_lt hframes) htakes
  · -- a fault in front is reported at once
    have hinput : (Lexer.primed source).input = ⟨[], some e, []⟩ := by
      rw [← hwords, ← hending]
      rfl
    obtain ⟨frames, rfl⟩ : ∃ m, frames = m + 1 := ⟨frames - 1, by omega⟩
    have hroom : complaintFrames < frames := by
      simp only [Procedure.spareFrames, complaintFrames] at hframes ⊢
      omega
    rw [hinput, Procedure.reader, bind_of_error (reader_expr_of_fault hroom e [])] at hcut
    obtain ⟨_, _, hresult, hcut⟩ := hcut
    cases hresult
    cases hcut

/-- Two numbers of frames that do not run out lead to the same. -/
theorem reader_eq_of_not_isCut {procedure : Procedure} {input : Input}
    (h : ¬ IsCut (procedure.reader frames input)) (h' : ¬ IsCut (procedure.reader more input)) :
    procedure.reader frames input = procedure.reader more input := by
  have hread := agreesWith_reader procedure (Nat.le_max_left frames more) input
  have hread' := agreesWith_reader procedure (Nat.le_max_right frames more) input
  exact (hread.resolve_left h).symm.trans (hread'.resolve_left h')

/-! ## Long lines -/

/-- What is read is a tree, or the text is in error. -/
def IsTreeOrParseError : Except ExprError Expr → Prop
  | .ok _ => True
  | .error e => e.IsParseError

section Line

variable [Limits]

theorem isTreeOrParseError_of_not_isCut
    (h : ¬ IsCut (Production.line.parser (Lexer.primed source).input)) :
    IsTreeOrParseError (readLine source).result := by
  cases hread : (readLine source).result with
  | ok t => trivial
  | error e =>
      refine isParseError_of_readLine hread ?_
      rintro rfl
      rw [readLine_eq_parse] at hread
      exact h (parse_eq_tooDeep_iff.mp hread)

/-- A source of any length is read to a tree or to an error in its text if no more than sixty
brackets, functions and minus signs are open at once, both as a line and as an expression that
something may follow.  Half of a thousand frames are enough for that, and with more of them nothing
else is read. -/
theorem readLine_of_opensAtMost (hlimit : 500 < Limits.readingFrames)
    (h : OpensAtMost source 60) :
    IsTreeOrParseError (readLine source).result ∧
      IsTreeOrParseError ((Lexer.primed source).parse .expr).result ∧
      ∀ frames > 500, ¬ IsCut (Procedure.line.reader frames (Lexer.primed source).input) ∧
        Procedure.line.reader frames (Lexer.primed source).input =
          Production.line.parser (Lexer.primed source).input := by
  have hroom : ∀ frames > 500, ¬ IsCut (Procedure.line.reader frames (Lexer.primed source).input) :=
    fun frames hframes => h.not_isCut (Nat.lt_trans (by decide) hframes)
  have hcut := hroom Production.line.frames (Nat.lt_succ_of_lt hlimit)
  have hline := isTreeOrParseError_of_not_isCut hcut
  refine ⟨hline, ?_, fun frames hframes => ⟨hroom frames hframes, ?_⟩⟩
  · rcases readsAlike source with ⟨-, hexpr, -⟩ | ⟨-, -, hexpr, -, -⟩ | ⟨hread, hexpr, -⟩
    · rw [hexpr]
      trivial
    · rw [hexpr]
      trivial
    · rw [hexpr, ← hread]
      exact hline
  · exact reader_eq_of_not_isCut (hroom frames hframes) hcut

end Line

/-- A bracket with three operators in it for every round. -/
def bracketOf (rounds : Nat) : List Char :=
  ['-', '('] ++ (List.replicate rounds ['1', '*', '2', '^', '3', '+']).flatten ++ ['4', ')']

/-- Six hundred operators in a row open nothing. -/
theorem readLine_of_opensAtMost_bracketOf :
    500 < Limits.readingFrames ∧ OpensAtMost (bracketOf 200) 60 ∧
      IsTreeOrParseError (readLine (bracketOf 200)).result ∧
      ∀ frames > 500,
        ¬ IsCut (Procedure.line.reader frames (Lexer.primed (bracketOf 200)).input) := by
  have hlimit : 500 < Limits.readingFrames := by decide
  have hopens : OpensAtMost (bracketOf 200) 60 := opensAtMost_of_countP (by decide +kernel)
  obtain ⟨hline, -, hframes⟩ := readLine_of_opensAtMost hlimit hopens
  exact ⟨hlimit, hopens, hline, fun frames hmore => (hframes frames hmore).1⟩

end LineCalculator
