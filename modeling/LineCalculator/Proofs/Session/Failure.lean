import LineCalculator.Proofs.Reader.Longest
import LineCalculator.Proofs.Reader.Objection

/-!
# Operations that fail

An operation that fails leaves its lexer where the failure is.  For a fault of the text the lexer
has met this fault and holds no token.  For a fault of grammar it holds the token that is objected
to, just as it was when it found it, or it holds none and the fault stands at the end of the source.
A lexer that has met a fault of the text stays there as long as it is only read from: the same fault
is reported again, and nothing is looked for.
-/

namespace LineCalculator.Lexer

variable {l : Lexer} {production : Production} {consumed left : List Token}

/-! ## Lexers that may have lost what they found -/

/-- The cursor is inside the source, and a token that is held ends there.  When nothing is held, or
there is a fault, the lexer holds the default token. -/
structure IsOrderly (l : Lexer) : Prop where
  pos_le : l.pos ≤ l.source.length
  stop_eq : l.current.isFound = true → l.current.stop = l.pos
  current_eq : l.current.isFound = false → l.current = {}
  current_of_error : ∀ e, l.error = some e → l.current = {}

theorem IsRegular.isOrderly (h : l.IsRegular) : l.IsOrderly where
  pos_le := h.pos_le
  stop_eq hfound := (h.holdsToken hfound).stop_eq
  current_eq hfound := h.current_eq hfound
  current_of_error _ herror := h.current_of_error herror

theorem IsRegular.isOrderly_bereft (h : l.IsRegular) : l.bereft.IsOrderly where
  pos_le := h.pos_le
  stop_eq hfound := by cases hfound
  current_eq _ := rfl
  current_of_error _ _ := rfl

theorem IsOrderly.steps (h : l.IsOrderly) (n : Nat) : (l.steps n).IsOrderly := by
  cases n with
  | zero => exact h
  | succ n => exact (isRegular_steps_succ h.pos_le n).isOrderly

theorem isOrderly_session [Limits] (source : List Char) (ops : Nat → Operation) (n : Nat) :
    (session source ops n).IsOrderly := by
  obtain ⟨looks, -, hlooks⟩ := exists_looks_session source ops
  have hregular := isRegular_steps source (looks n)
  rcases hlooks n with hsession | ⟨-, hsession⟩
  · rw [hsession]
    exact hregular.isOrderly
  · rw [hsession]
    exact hregular.isOrderly_bereft

/-! ## Where a lexer is after some of its tokens -/

theorem stream_of_not_isFound (h : l.current.isFound = false) : l.stream = [] := by
  rw [stream, h]
  rfl

theorem isFound_of_mem_stream {t : Token} (h : t ∈ l.stream) : t.isFound = true := by
  by_cases hfound : l.current.isFound = true
  · rw [stream, if_pos hfound, List.mem_cons] at h
    rcases h with rfl | h
    · exact hfound
    · obtain ⟨ps, ending, hmade⟩ := exists_isMadeOf l.pos l.unread
      obtain ⟨⟨t, text⟩, hmem, rfl⟩ := List.mem_map.mp h
      rw [hmade.scanAll_eq] at hmem
      obtain ⟨rest, -, hspelling, -⟩ := hmade
      have hword : (⟨t.kind, text, t.value⟩ : Word) ∈ ps.map Piece.word := by
        rw [← words_of_texts l.pos ps]
        exact List.mem_map_of_mem hmem
      have hkind := (hspelling.isLexical _ hword).1.kind_ne_invalid
      simpa [Token.isFound] using hkind
  · rw [stream, if_neg hfound] at h
    cases h

/-- After as many steps as tokens are used up, possibly none, the lexer holds the next of them. -/
theorem IsOrderly.current_steps (h : l.IsOrderly) (hstream : l.stream = consumed ++ left) :
    (l.steps consumed.length).current = left.head?.getD {} ∧
      (left = [] → (l.steps consumed.length).error = l.words.2) := by
  by_cases hfound : l.current.isFound = true
  · cases consumed with
    | nil =>
        rw [List.nil_append, stream, if_pos hfound] at hstream
        subst hstream
        exact ⟨rfl, fun hnil => by cases hnil⟩
    | cons t consumed => exact current_steps_of_stream hfound hstream (List.cons_ne_nil t consumed)
  · rw [Bool.not_eq_true] at hfound
    rw [stream_of_not_isFound hfound] at hstream
    obtain ⟨rfl, rfl⟩ := List.append_eq_nil_iff.mp hstream.symm
    exact ⟨h.current_eq hfound, fun _ => by rw [words_of_not_isFound hfound]; rfl⟩

theorem IsOrderly.word?_steps (h : l.IsOrderly) (hstream : l.stream = consumed ++ left) :
    (l.steps consumed.length).word? = (left.map (Token.word l.source)).head? := by
  obtain ⟨hcurrent, -⟩ := h.current_steps hstream
  rw [word?, hcurrent, source_steps]
  cases left with
  | nil => rfl
  | cons t left =>
      have hfound : t.isFound = true := isFound_of_mem_stream (l := l) (by simp [hstream])
      exact if_pos hfound

/-! ## Failures of reading -/

/-- A fault of grammar stands at the token that the lexer holds when it has moved on over some
tokens, or at the end of the source when it holds none.  The token is not used up: the lexer is as
it was when it looked for the token. -/
structure RefusesAt (l : Lexer) (fault : GrammarFault) (position : Int) (moved : Lexer) : Prop where
  isAbout : fault.IsAbout moved.word?
  position_of_isFound : moved.current.isFound = true → position = moved.current.start ∧
    moved.pos = moved.current.stop
  position_of_not_isFound : moved.current.isFound = false → position = l.source.length
  not_used_up : ∃ consumed left, l.stream = consumed ++ left ∧ moved = l.steps consumed.length ∧
    moved.current = left.head?.getD {}

theorem IsOrderly.refusesAt {fault : GrammarFault} {moved : Lexer} (h : l.IsOrderly)
    (hstream : l.stream = consumed ++ left) (hmoved : moved = l.steps consumed.length)
    (habout : fault.IsAbout (left.map (Token.word l.source)).head?) :
    l.RefusesAt fault moved.place moved := by
  subst hmoved
  refine ⟨?_, ?_, ?_, consumed, left, hstream, rfl, (h.current_steps hstream).1⟩
  · rw [h.word?_steps hstream]
    exact habout
  · intro hfound
    exact ⟨by rw [place, if_pos hfound], ((h.steps consumed.length).stop_eq hfound).symm⟩
  · intro hfound
    rw [place, hfound, source_steps]
    rfl

/-- A reader that fails stops in front of some of the tokens, and its failure is about what is left
there. -/
theorem exists_split_of_parse [Limits] {e : ExprError}
    (h : (l.parse production).result = .error e) :
    ∃ failure rest consumed left, e = l.locate failure ∧ failure.IsAt rest ∧
      l.stream = consumed ++ left ∧ rest.words = left.map (Token.word l.source) ∧
      rest.ending = l.words.2 ∧ (l.parse production).lexer = l.failing failure rest.words.length ∧
      l.leaving rest.words.length = l.steps consumed.length := by
  have hplace := failsInPlace_production production l.input
  rw [parse] at h ⊢
  cases hresult : production.parser l.input with
  | ok t rest =>
      rw [hresult] at h
      cases h
  | error failure rest =>
      rw [hresult] at h hplace
      cases h
      obtain ⟨⟨⟨used, hused⟩, hending, -⟩, hat⟩ := hplace
      have hwords : l.stream.map (Token.word l.source) = used ++ rest.words :=
        l.words_fst.symm.trans hused.symm
      obtain ⟨consumed, left, hstream, -, hleft⟩ := List.map_eq_append_iff.mp hwords
      have hleaving : l.leaving rest.words.length = l.steps consumed.length := by
        rw [leaving, words_fst, hstream, ← hleft, List.length_map, List.length_map,
          List.length_append, Nat.add_sub_cancel]
      exact ⟨failure, rest, consumed, left, rfl, hat, hstream, hleft.symm, hending, rfl, hleaving⟩

theorem IsOrderly.error_parse [Limits] {e : LexicalError} (h : l.IsOrderly)
    (hresult : (l.parse production).result = .error (.lexical e)) :
    (l.parse production).lexer.error = some e ∧ (l.parse production).lexer.current = {} := by
  obtain ⟨failure, rest, consumed, left, hfailure, hat, hstream, hwords, hending, hlexer,
    hleaving⟩ := exists_split_of_parse hresult
  cases hat with
  | lexical hnil he =>
      cases hfailure
      have hleft : left = [] := List.map_eq_nil_iff.mp (hwords.symm.trans hnil)
      have hsteps : (l.parse production).lexer = l.steps consumed.length := hlexer.trans hleaving
      have herror : (l.parse production).lexer.error = some e := by
        rw [hsteps, (h.current_steps hstream).2 hleft, ← hending, he]
      refine ⟨herror, ?_⟩
      rw [hsteps] at herror ⊢
      exact (h.steps consumed.length).current_of_error e herror
  | refused => cases hfailure
  | tooDeep => cases hfailure
  | brokenOff => cases hfailure

theorem IsOrderly.refusesAt_parse [Limits] {fault : GrammarFault} {position : Int}
    (h : l.IsOrderly)
    (hresult : (l.parse production).result = .error (.grammatical fault position)) :
    l.RefusesAt fault position (l.parse production).lexer := by
  obtain ⟨failure, rest, consumed, left, hfailure, hat, hstream, hwords, -, hlexer, hleaving⟩ :=
    exists_split_of_parse hresult
  cases hat with
  | lexical => cases hfailure
  | refused habout =>
      cases hfailure
      have hsteps : (l.parse production).lexer = l.steps consumed.length := hlexer.trans hleaving
      rw [hleaving, ← hsteps]
      rw [hwords] at habout
      exact h.refusesAt hstream hsteps habout
  | tooDeep => cases hfailure
  | brokenOff => cases hfailure

/-! ## Failures of all operations -/

end Lexer

variable {l : Lexer} {α β : Type}

/-- If a step of a lexer fails, the lexer is where the failure is. -/
structure Step.IsPinned (step : Step α) (l : Lexer) : Prop where
  lexical : ∀ e, step.result = .error (.lexical e) →
    step.lexer.error = some e ∧ step.lexer.current = {}
  grammatical : ∀ fault position, step.result = .error (.grammatical fault position) →
    l.RefusesAt fault position step.lexer

/-- What is done with the result of a step can only fail as evaluation does, which is not a failure
of the text. -/
theorem Step.IsPinned.andThen {step : Step α} {f : α → Except ExprError β} (h : step.IsPinned l)
    (hf : ∀ a e, f a = .error e → ∃ failure, e = .ofEval failure) :
    (step.andThen f).IsPinned l := by
  have herror : ∀ e, (step.andThen f).result = .error e →
      step.result = .error e ∨ ∃ failure, e = .ofEval failure := by
    intro e he
    cases hresult : step.result with
    | ok a => exact Or.inr (hf a e ((Step.result_andThen_of_ok hresult).symm.trans he))
    | error error =>
        cases (Step.result_andThen_of_error (f := f) hresult).symm.trans he
        exact Or.inl rfl
  constructor
  · intro e he
    rcases herror _ he with hstep | ⟨failure, hfailure⟩
    · exact h.lexical e hstep
    · cases failure <;> cases hfailure
  · intro fault position he
    rcases herror _ he with hstep | ⟨failure, hfailure⟩
    · exact h.grammatical fault position hstep
    · cases failure <;> cases hfailure

namespace Lexer

theorem IsOrderly.isPinned_advance (h : l.IsOrderly) : l.advance.IsPinned l := by
  rw [advance]
  cases herror : l.next.error with
  | none => exact ⟨fun _ he => (by cases he), fun _ _ he => (by cases he)⟩
  | some e =>
      refine ⟨?_, fun _ _ he => (by cases he)⟩
      rintro _ ⟨⟩
      exact ⟨herror, (isRegularBehind_next h.pos_le).2.current_of_error herror⟩

theorem IsOrderly.isPinned_expect (h : l.IsOrderly) (kind : Kind) :
    (l.expect kind).IsPinned l := by
  rw [expect]
  by_cases hkind : l.current.kind = kind
  · rw [if_pos hkind]
    exact h.isPinned_advance
  · rw [if_neg hkind]
    refine ⟨fun _ he => (by cases he), ?_⟩
    rintro _ _ ⟨⟩
    have hstream : l.stream = [] ++ l.stream := rfl
    have hword : l.word? = (l.stream.map (Token.word l.source)).head? := h.word?_steps hstream
    have hother : l.word?.map Word.kind ≠ some kind := by
      rw [word?]
      split
      · exact fun heq => hkind (Option.some.inj heq)
      · exact fun heq => by cases heq
    refine h.refusesAt hstream rfl ?_
    rw [← hword]
    exact .expected hother

theorem IsOrderly.isPinned_parse [Limits] (h : l.IsOrderly) (production : Production) :
    (l.parse production).IsPinned l :=
  ⟨fun _ he => h.error_parse he, fun _ _ he => h.refusesAt_parse he⟩

theorem IsOrderly.isPinned_evaluate [Limits] (h : l.IsOrderly) : l.evaluate.IsPinned l := by
  refine (h.isPinned_parse .expr).andThen fun t e he => ?_
  cases heval : t.eval with
  | ok x =>
      rw [heval] at he
      cases he
  | error failure =>
      rw [heval] at he
      cases he
      exact ⟨failure, rfl⟩

theorem IsOrderly.isPinned_run [Limits] (h : l.IsOrderly) (op : Operation) :
    (op.run l).IsPinned l := by
  have hreply : ∀ {α : Type} {step : Step α} (reply : α → Reply), step.IsPinned l →
      (step.andThen fun a => .ok (reply a)).IsPinned l :=
    fun _ hstep => hstep.andThen fun _ _ he => by cases he
  cases op with
  | next => exact ⟨fun _ he => (by cases he), fun _ _ he => (by cases he)⟩
  | drain => exact ⟨fun _ he => (by cases he), fun _ _ he => (by cases he)⟩
  | advance => exact hreply _ h.isPinned_advance
  | expect kind => exact hreply _ (h.isPinned_expect kind)
  | parse production => exact hreply _ (h.isPinned_parse production)
  | evaluate => exact hreply _ h.isPinned_evaluate

/-! ## Reading after a fault of the text -/

/-- The operations that read an expression, or a line of one, and look at a fault before they
start. -/
def readings : List Operation :=
  [.parse .line, .parse .expr, .evaluate]

theorem IsOrderly.run_of_error [Limits] {e : LexicalError} {op : Operation} (h : l.IsOrderly)
    (herror : l.error = some e) (hop : op ∈ readings) :
    (op.run l).result = .error (.lexical e) ∧ (op.run l).lexer = l := by
  have hwords : l.words = ([], some e) := by
    rw [words_of_not_isFound (by rw [h.current_of_error e herror]; rfl), herror]
  have hline := parse_of_fault hwords (Or.inl rfl)
  have hexpr := parse_of_fault hwords (Or.inr rfl)
  simp only [readings, List.mem_cons, List.not_mem_nil, or_false] at hop
  rcases hop with rfl | rfl | rfl
  · rw [Operation.run, hline]
    exact ⟨rfl, rfl⟩
  · rw [Operation.run, hexpr]
    exact ⟨rfl, rfl⟩
  · rw [Operation.run, evaluate, hexpr]
    exact ⟨rfl, rfl⟩

/-- A failed operation of a session, whatever was done before it, leaves the lexer where the failure
is.  After a fault of the text the lexer has this fault and holds no token.  A fault of grammar is
about the token that the lexer holds, stands where it starts, and has not used it up; if none is
held it stands at the end of the source.  In both cases the lexer is as a look for a token has left
it, unless what that look has found was lost in an operation that was too deep.  While the lexer has a
fault, reading from it reports the fault again and leaves it as it is. -/
theorem session_failure [Limits] (source : List Char) (ops : Nat → Operation) (n : Nat)
    (op : Operation) :
    (op.run (session source ops n)).IsPinned (session source ops n) ∧
    (∃ looks, (op.run (session source ops n)).lexer = (ofSource source).steps looks ∨
      ((op.run (session source ops n)).result = .error .tooDeep ∨
          HasStayed source ops n ∧ (op.run (session source ops n)).lexer = session source ops n) ∧
        (op.run (session source ops n)).lexer = ((ofSource source).steps looks).bereft) ∧
    (op ∈ readings → ∀ e, (session source ops n).error = some e →
      (op.run (session source ops n)).result = .error (.lexical e) ∧
        (op.run (session source ops n)).lexer = session source ops n) := by
  have horderly := isOrderly_session source ops n
  refine ⟨horderly.isPinned_run op, ?_, fun hop e herror => horderly.run_of_error herror hop⟩
  obtain ⟨looks, -, hlooks⟩ := exists_looks_session source ops
  obtain ⟨k, hk⟩ := exists_moves_run (session source ops n) op
  exact ⟨looks n + k, lexer_of_moves hk (hlooks n)⟩

/-- Finds a token, reads from there, and then moves on. -/
def readAndAdvance : Nat → Operation
  | 0 => .next
  | 1 => .parse .expr
  | _ => .advance

/-- A bracket of the wrong kind is refused and still held; moving on from it meets a fault, which is
then reported by an evaluation. -/
theorem session_failure_brackets :
    (session ['(', '1', ']', '$'] readAndAdvance 1).RefusesAt
      (.expected .rparen (some ⟨.rbracket, [']'], 0⟩)) 2
      (session ['(', '1', ']', '$'] readAndAdvance 2) ∧
    (session ['(', '1', ']', '$'] readAndAdvance 3).error =
      some ⟨.unexpectedCharacter '$', 3⟩ ∧
    (Operation.run (session ['(', '1', ']', '$'] readAndAdvance 3) .evaluate).result =
      .error (.lexical ⟨.unexpectedCharacter '$', 3⟩) := by
  have hrefused : (Operation.run (session ['(', '1', ']', '$'] readAndAdvance 1)
      (.parse .expr)).result =
        .error (.grammatical (.expected .rparen (some ⟨.rbracket, [']'], 0⟩)) 2) := by
    decide +kernel
  have hfault : (Operation.run (session ['(', '1', ']', '$'] readAndAdvance 2) .advance).result =
      .error (.lexical ⟨.unexpectedCharacter '$', 3⟩) := by
    decide +kernel
  obtain ⟨hread, -⟩ := session_failure ['(', '1', ']', '$'] readAndAdvance 1 (.parse .expr)
  obtain ⟨hadvance, -⟩ := session_failure ['(', '1', ']', '$'] readAndAdvance 2 .advance
  obtain ⟨herror, -⟩ := hadvance.lexical _ hfault
  obtain ⟨-, -, hagain⟩ := session_failure ['(', '1', ']', '$'] readAndAdvance 3 .evaluate
  exact ⟨hread.grammatical _ _ hrefused, herror, (hagain (by decide) _ herror).1⟩

end LineCalculator.Lexer
