import Mathlib.Data.Nat.Count
import LineCalculator.Proofs.Reader.Rounds
import LineCalculator.Proofs.Session.Invariant

/-!
# Progress

A look for a token that finds one moves the cursor on.  A look that does not move the cursor has
found nothing, and every look after it does the same again, so the lexer stays as it is whatever is
done with it.  The source therefore bounds how often a token can be found, and how often any
operation looks for one.
-/

namespace LineCalculator

variable {l : Lexer}

namespace Lexer

/-! ## One look -/

/-- What a look finds depends on the source and the cursor only. -/
theorem next_congr {l' : Lexer} (hsource : l'.source = l.source) (hpos : l'.pos = l.pos) :
    l'.next = l.next := by
  rw [next, next, unread, unread, hsource, hpos]

theorem pos_lt_next (h : l.next.current.isFound = true) : l.pos < l.next.pos := by
  rcases scan_trichotomy l.unread with ⟨gap, kind, text, rest, hunread, hgap, htext, hends⟩ | hgap |
    ⟨gap, text, c, rest, fault, hunread, hgap, hfault⟩
  · have hne : 0 < text.length := List.length_pos_iff.mpr htext.ne_nil
    rw [next_of_lexeme hunread hgap htext hends]
    simp only
    omega
  · rw [next_of_isGap hgap] at h
    cases h
  · by_cases hne : text = []
    · subst hne
      rw [next_of_unexpected hunread hgap hfault] at h
      cases h
    · rw [next_of_spoiled hunread hgap hfault hne] at h
      cases h

theorem isFound_next_of_pos_eq (h : l.next.pos = l.pos) : l.next.current.isFound = false := by
  by_contra hfound
  have hlt := pos_lt_next (Bool.eq_true_of_not_eq_false hfound)
  omega

/-- A look that does not move the cursor is repeated by every look after it. -/
theorem next_next_of_pos_eq (h : l.next.pos = l.pos) : l.next.next = l.next :=
  next_congr l.source_next h

theorem steps_of_next_eq (h : l.next = l) (n : Nat) : l.steps n = l := by
  induction n with
  | zero => rfl
  | succ n ih => rw [steps, h, ih]

theorem steps_succ (n : Nat) (l : Lexer) : l.steps (n + 1) = (l.steps n).next :=
  steps_add n 1 l

/-! ## Any number of looks -/

/-- Looks that each move the cursor move it at least as far as there are looks. -/
theorem pos_add_le_steps {n : Nat} (h : ∀ i < n, (l.steps i).pos < (l.steps (i + 1)).pos) :
    l.pos + n ≤ (l.steps n).pos := by
  induction n with
  | zero => exact Nat.le_refl _
  | succ n ih =>
      have hn := ih fun i hi => h i (Nat.lt_succ_of_lt hi)
      have hlt := h n (Nat.lt_succ_self n)
      omega

/-- A lexer whose looks all find a token looks no more often than there are characters left. -/
theorem looks_le_of_isFound {n : Nat} (hpos : l.pos ≤ l.source.length)
    (hfound : ∀ i < n, (l.steps (i + 1)).current.isFound = true) :
    n ≤ l.source.length - l.pos := by
  have hle := pos_add_le_steps (l := l) (n := n) fun i hi => by
    have hnext := hfound i hi
    rw [steps_succ] at hnext ⊢
    exact pos_lt_next hnext
  have hbound := (pos_le_steps hpos n).2
  omega

/-- After as many looks as there are characters left, and one more, nothing changes. -/
theorem steps_settled (hpos : l.pos ≤ l.source.length) (n : Nat) :
    l.steps (l.source.length - l.pos + 1 + n) = l.steps (l.source.length - l.pos + 1) := by
  have hbound := (pos_le_steps hpos (l.source.length - l.pos + 1)).2
  by_cases hmoves : ∀ i < l.source.length - l.pos + 1, (l.steps i).pos < (l.steps (i + 1)).pos
  · have hle := pos_add_le_steps hmoves
    omega
  · push Not at hmoves
    obtain ⟨i, hi, hle⟩ := hmoves
    have hinside := (pos_le_steps hpos i).2
    rw [← source_steps i l] at hinside
    have hforth := (pos_le_steps hinside 1).1
    rw [← steps_add] at hforth
    rw [steps_succ] at hle hforth
    have hfixed := next_next_of_pos_eq (Nat.le_antisymm hle hforth)
    have hstays : ∀ k, l.steps (i + 1 + k) = l.steps (i + 1) := by
      intro k
      rw [steps_add, steps_succ]
      exact steps_of_next_eq hfixed k
    obtain ⟨k, hk⟩ : ∃ k, l.source.length - l.pos + 1 = i + 1 + k :=
      ⟨l.source.length - l.pos - i, by omega⟩
    rw [hk, Nat.add_assoc (i + 1), hstays, hstays]

/-! ## Taking all tokens -/

/-- Taking tokens as long as there are any ends after a number of rounds, and gives the tokens that
were found in these rounds. -/
structure DrainsAfter (l : Lexer) (rounds : Nat) : Prop where
  isFound : ∀ i < rounds, (l.steps (i + 1)).current.isFound = true
  isFound_last : (l.steps (rounds + 1)).current.isFound = false
  tokens_eq : l.drain.1 = (List.range rounds).map fun i => (l.steps (i + 1)).current
  lexer_eq : l.drain.2 = l.steps (rounds + 1)

/-- Taking tokens goes on where a look finds one. -/
theorem DrainsAfter.succ {rounds : Nat} (h : l.next.DrainsAfter rounds)
    (hfound : l.next.current.isFound = true)
    (hdrain : l.drain = (l.next.current :: l.next.drain.1, l.next.drain.2)) :
    l.DrainsAfter (rounds + 1) := by
  refine ⟨?_, h.isFound_last, ?_, ?_⟩
  · intro i hi
    cases i with
    | zero => exact hfound
    | succ i => exact h.isFound i (Nat.lt_of_succ_lt_succ hi)
  · rw [hdrain, h.tokens_eq, List.range_succ_eq_map, List.map_cons, List.map_map]
    rfl
  · rw [hdrain]
    exact h.lexer_eq

theorem Faces.drain_eq {ps : List Piece} {ending : Option LexicalError} (h : l.Faces ps ending) :
    l.drain = ((spelledTokens l.pos ps).map Prod.fst, l.steps (ps.length + 1)) := by
  rw [drain, h.scanAll_eq, List.length_map, length_spelledTokens]

theorem Faces.drainsAfter {ps : List Piece} {ending : Option LexicalError}
    (h : l.Faces ps ending) : l.DrainsAfter ps.length := by
  induction ps generalizing l with
  | nil =>
      have hfound : l.next.current.isFound = false := by
        rw [h.next_nil.2.1]
        rfl
      refine ⟨by simp, hfound, ?_, ?_⟩
      · rw [h.drain_eq]
        rfl
      · rw [h.drain_eq, List.length_nil]
  | cons p ps ih =>
      obtain ⟨hnext, hrest⟩ := h.next_cons
      have hsteps : l.steps ((p :: ps).length + 1) = l.next.steps (ps.length + 1) := rfl
      refine (ih hrest).succ ?_ ?_
      · rw [hnext]
        exact isFound_token h
      · rw [h.drain_eq, hrest.drain_eq, hsteps, hnext]
        rfl

/-- Taking all tokens ends within as many rounds as there are characters left. -/
theorem exists_drainsAfter (hpos : l.pos ≤ l.source.length) :
    ∃ rounds ≤ l.source.length - l.pos, l.DrainsAfter rounds := by
  obtain ⟨ps, ending, hfaces⟩ := exists_isMadeOf l.pos l.unread
  have hdrains : l.DrainsAfter ps.length := Faces.drainsAfter hfaces
  exact ⟨ps.length, looks_le_of_isFound hpos hdrains.isFound, hdrains⟩

/-! ## Operations -/

theorem length_words_le (l : Lexer) : l.words.1.length ≤ l.drain.1.length + 1 := by
  rw [words, drain]
  split
  · rw [List.length_cons, List.length_map, List.length_map]
  · exact Nat.zero_le _

theorem DrainsAfter.length_words_le {rounds : Nat} (h : l.DrainsAfter rounds) :
    l.words.1.length ≤ rounds + 1 := by
  have hle := l.length_words_le
  rwa [h.tokens_eq, List.length_map, List.length_range] at hle

/-- An operation looks for a token at most once more often than there are characters left. -/
theorem exists_moves_run_le [Limits] (hpos : l.pos ≤ l.source.length) (op : Operation) :
    ∃ k ≤ l.source.length - l.pos + 1, (op.run l).Moves l k := by
  obtain ⟨rounds, hrounds, hdrains⟩ := exists_drainsAfter hpos
  have hparse : ∀ production, ∃ k ≤ l.source.length - l.pos + 1,
      (l.parse production).Moves l k := by
    intro production
    have hwords := hdrains.length_words_le
    obtain ⟨k, hle, hk⟩ := l.exists_moves_parse production
    exact ⟨k, by omega, hk⟩
  cases op with
  | next => exact ⟨1, by omega, Or.inl rfl⟩
  | drain => exact ⟨rounds + 1, by omega, Or.inl hdrains.lexer_eq⟩
  | advance => exact ⟨1, by omega, Or.inl l.lexer_advance⟩
  | expect kind =>
      obtain ⟨k, hle, hk⟩ := l.exists_moves_expect kind
      exact ⟨k, by omega, hk.andThen⟩
  | parse production =>
      obtain ⟨k, hle, hk⟩ := hparse production
      exact ⟨k, hle, hk.andThen⟩
  | evaluate =>
      obtain ⟨k, hle, hk⟩ := hparse .expr
      exact ⟨k, hle, hk.andThen.andThen⟩

/-! ## Sessions -/

theorem result_andThen_ne_found {α : Type} (step : Step α) {f : α → Reply}
    {b : Bool} (hf : ∀ a, f a ≠ .found b) :
    (step.andThen fun a => .ok (f a)).result ≠ .ok (.found b) := by
  intro h
  cases hresult : step.result with
  | ok a => exact hf a (Except.ok.inj ((Step.result_andThen_of_ok hresult).symm.trans h))
  | error e => cases (Step.result_andThen_of_error hresult).symm.trans h

section Session

variable [Limits] {source : List Char} {ops : Nat → Operation} {n : Nat}

/-- The operation of a session after the first `n` looks for a token and finds one. -/
def Finds (source : List Char) (ops : Nat → Operation) (n : Nat) : Prop :=
  ((ops n).run (session source ops n)).result = .ok (.found true)

instance : DecidablePred (Finds source ops) := fun n =>
  inferInstanceAs (Decidable (((ops n).run (session source ops n)).result = .ok (.found true)))

/-- Only a look answers that something was found. -/
theorem eq_next_of_found {op : Operation} {b : Bool} (h : (op.run l).result = .ok (.found b)) :
    op = .next ∧ l.next.current.isFound = b := by
  cases op with
  | next => exact ⟨rfl, by simpa [Operation.run] using h⟩
  | drain => simp [Operation.run] at h
  | advance => exact absurd h (result_andThen_ne_found _ (by simp))
  | expect kind => exact absurd h (result_andThen_ne_found _ (by simp))
  | parse production => exact absurd h (result_andThen_ne_found _ (by simp))
  | evaluate => exact absurd h (result_andThen_ne_found _ (by simp))

theorem session_succ_of_next (h : ops n = .next) :
    session source ops (n + 1) = (session source ops n).next := by
  rw [session, h]
  rfl

theorem Finds.pos_lt (h : Finds source ops n) :
    (session source ops n).pos < (session source ops (n + 1)).pos := by
  obtain ⟨hop, hfound⟩ := eq_next_of_found h
  rw [session_succ_of_next hop]
  exact pos_lt_next hfound

/-- A session stays where a look did not move the cursor. -/
theorem session_stays (hop : ops n = .next)
    (hpos : (session source ops (n + 1)).pos = (session source ops n).pos) :
    ∀ m > n, session source ops m = session source ops (n + 1) := by
  have hnext : session source ops (n + 1) = (session source ops n).next :=
    session_succ_of_next hop
  rw [hnext] at hpos ⊢
  have hfixed := next_next_of_pos_eq hpos
  have hfound := isFound_next_of_pos_eq hpos
  intro m hm
  induction m, Nat.succ_le_of_lt hm using Nat.le_induction with
  | base => exact hnext
  | succ m _ ih =>
      have hm := ih (by omega)
      obtain ⟨k, hk⟩ := exists_moves_run (session source ops m) (ops m)
      rw [session]
      rw [hm] at hk ⊢
      rcases hk with hlexer | ⟨hheld, -⟩
      · rw [hlexer, steps_of_next_eq hfixed k]
      · cases hfound.symm.trans hheld

/-- Every token that a session finds is paid for by the cursor. -/
theorem count_finds_le (source : List Char) (ops : Nat → Operation) (n : Nat) :
    Nat.count (Finds source ops) n ≤ (session source ops n).pos := by
  induction n with
  | zero => exact Nat.zero_le _
  | succ n ih =>
      have hle := monotone_pos_session source ops (Nat.le_add_right n 1)
      dsimp only at hle
      rw [Nat.count_succ]
      split
      · rename_i hfinds
        have hlt := hfinds.pos_lt
        omega
      · omega

/-- Everything that is done with a lexer comes to an end when `left` characters are left: taking all
tokens, the looks of every operation, and the changes that looks can make. -/
structure EndsWithin (l : Lexer) (left : Nat) : Prop where
  drains : ∃ rounds ≤ left, l.DrainsAfter rounds
  looks : ∀ op, ∃ k ≤ left + 1, (Operation.run l op).Moves l k
  settles : ∀ n, l.steps (left + 1 + n) = l.steps (left + 1)

theorem endsWithin_session (source : List Char) (ops : Nat → Operation) (n : Nat) :
    (session source ops n).EndsWithin (source.length - (session source ops n).pos) := by
  have hpos : (session source ops n).pos ≤ (session source ops n).source.length := by
    rw [source_session]
    exact pos_session_le source ops n
  have hdrains := exists_drainsAfter hpos
  have hlooks := exists_moves_run_le hpos
  have hsettles := steps_settled hpos
  rw [source_session] at hdrains hlooks hsettles
  exact ⟨hdrains, hlooks, hsettles⟩

/-- In a session over a source, whatever else is done in between, a look that finds a token moves
the cursor on.  A look that does not move it has found nothing, and no operation after it changes
the lexer again.  So no more tokens are ever found than the source has characters, also behind
literals that went wrong, and wherever a session has come to, everything that is done with the lexer
ends within the characters that are left.  No loop over operators is cut short by the number of
rounds that it is given. -/
theorem session_progress (source : List Char) (ops : Nat → Operation) :
    (∀ n, Finds source ops n →
      (session source ops n).pos < (session source ops (n + 1)).pos) ∧
    (∀ n, ops n = .next →
      (session source ops (n + 1)).pos = (session source ops n).pos →
        ((ops n).run (session source ops n)).result = .ok (.found false) ∧
        ∀ m > n, session source ops m = session source ops (n + 1)) ∧
    (∀ n, Nat.count (Finds source ops) n ≤ source.length) ∧
    (∀ n, (session source ops n).EndsWithin (source.length - (session source ops n).pos)) ∧
    ∀ (procedure : Procedure) (frames : Nat) (e : Expr) (input : Input),
      ∀ rounds ≥ input.words.length,
        procedure.goOn frames rounds e input =
          procedure.goOn frames input.words.length e input := by
  refine ⟨fun n h => h.pos_lt, ?_, ?_, endsWithin_session source ops,
    fun procedure frames e input rounds => goOn_eq_of_le procedure frames e⟩
  · intro n hop hpos
    refine ⟨?_, session_stays hop hpos⟩
    rw [session_succ_of_next hop] at hpos
    rw [hop, Operation.run, isFound_next_of_pos_eq hpos]
  · exact fun n => (count_finds_le source ops n).trans (pos_session_le source ops n)

end Session

/-- A literal goes wrong, the look after it finds a number behind the spoiling point, and then a
character that starts nothing holds the session up for good. -/
theorem session_progress_spoiled :
    ((session "1..2$".toList (fun _ => .next) 1).pos = 3 ∧
      (session "1..2$".toList (fun _ => .next) 1).pos <
        (session "1..2$".toList (fun _ => .next) 2).pos) ∧
    ∀ m > 2, session "1..2$".toList (fun _ => .next) m =
      session "1..2$".toList (fun _ => .next) 3 := by
  obtain ⟨hfinds, hstays, -⟩ := session_progress "1..2$".toList fun _ => .next
  exact ⟨⟨by decide +kernel, hfinds 1 (by decide +kernel)⟩,
    (hstays 2 rfl (by decide +kernel)).2⟩

end Lexer

end LineCalculator
