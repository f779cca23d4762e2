import LineCalculator.Proofs.Lexical.Cursor

/-!
# The states of a lexer

Looking for a token leaves a lexer in one of three states: it holds a token whose lexeme ends at the
cursor, it has found nothing because only spaces were left, or it has met a fault.  A lexer in front
of its source is in the second state without having looked.

The state does not depend on where the cursor stood, as long as it stood inside the source.  So a
lexer that has met a fault can be used on, and whatever it does next ends in one of the three states
again.
-/

namespace LineCalculator

/-! ## No lexeme starts with an unexpected character -/

theorem IsLexeme.class_of_cons {kind : Kind} {c : Char} {cs : List Char}
    (h : IsLexeme kind (c :: cs)) :
    Kind.ofMark? c ≠ none ∨ c.isAlphanum = true ∨ c = '.' := by
  cases h with
  | mark hmark => simp [hmark]
  | name _ hletters =>
      have hletter := hletters c (by simp)
      exact Or.inr (Or.inl (by simp [Char.isAlphanum, hletter]))
  | number _ hdigits _ =>
      rcases hdigits c (by simp) with hdigit | hpoint
      · exact Or.inr (Or.inl (by simp [Char.isAlphanum, hdigit]))
      · exact Or.inr (Or.inr hpoint)

/-- A fault behind nothing is a character that is no space and starts no lexeme. -/
theorem IsFaultAfter.of_nil {c : Char} {fault : LexicalFault} (h : IsFaultAfter [] c fault) :
    fault = .unexpectedCharacter c ∧ c ∉ spaces ∧ ∀ kind cs, ¬ IsLexeme kind (c :: cs) := by
  cases h with
  | unexpectedCharacter hspace hmark hliteral hpoint =>
      refine ⟨rfl, hspace, ?_⟩
      intro kind cs hlexeme
      rcases hlexeme.class_of_cons with h | h | h
      · exact h hmark
      · simp [hliteral] at h
      · exact hpoint h
  | extraPoint _ hpoint => simp at hpoint
  | strayInLiteral hne => exact absurd rfl hne

namespace Lexer

/-! ## The three states -/

/-- The lexer holds a token whose lexeme ends at the cursor. -/
structure HoldsToken (l : Lexer) : Prop where
  isFound : l.current.isFound = true
  start_nonneg : 0 ≤ l.current.start
  start_lt_stop : l.current.start < l.current.stop
  stop_eq : l.current.stop = l.pos
  isLexeme : IsLexeme l.current.kind (l.current.text l.source)
  error_eq : l.error = none

/-- The lexer holds no token and has met no fault, because it has not looked or nothing is left. -/
structure HoldsNothing (l : Lexer) : Prop where
  current_eq : l.current = {}
  error_eq : l.error = none
  fresh_or_passed : l = ofSource l.source ∨ l.pos = l.source.length

/-- Where the cursor stands when it has met a fault: in front of a character that is no space and
starts no lexeme, or behind the character that spoiled a literal. -/
inductive StandsAt (l : Lexer) : LexicalError → Prop
  | unexpected {c : Char} (hc : l.source[l.pos]? = some c) (hspace : c ∉ spaces)
      (hstart : ∀ kind text, ¬ IsLexeme kind (c :: text)) :
      StandsAt l ⟨.unexpectedCharacter c, l.pos⟩
  | spoiled {before text after : List Char} {c : Char} {fault : LexicalFault}
      (hsource : l.source = before ++ (text ++ c :: after)) (hne : text ≠ [])
      (hfault : IsFaultAfter text c fault) (hpos : l.pos = before.length + text.length + 1) :
      StandsAt l ⟨fault, l.pos - 1⟩

/-- The lexer holds no token because of a fault. -/
structure HasFailed (l : Lexer) : Prop where
  current_eq : l.current = {}
  exists_error : ∃ e, l.error = some e ∧ l.StandsAt e

/-- The cursor is inside the source and the lexer is in one of the three states. -/
structure IsRegular (l : Lexer) : Prop where
  pos_le : l.pos ≤ l.source.length
  state : l.HoldsToken ∨ l.HoldsNothing ∨ l.HasFailed

variable {l : Lexer}

theorem HoldsToken.not_holdsNothing (h : l.HoldsToken) : ¬ l.HoldsNothing := by
  intro h'
  have hfound := h.isFound
  rw [h'.current_eq] at hfound
  cases hfound

theorem HoldsToken.not_hasFailed (h : l.HoldsToken) : ¬ l.HasFailed := by
  intro h'
  have hfound := h.isFound
  rw [h'.current_eq] at hfound
  cases hfound

theorem HoldsNothing.not_hasFailed (h : l.HoldsNothing) : ¬ l.HasFailed := by
  rintro ⟨-, e, herror, -⟩
  cases h.error_eq.symm.trans herror

/-- The lexer is in exactly one of the three states. -/
def IsInOneState (l : Lexer) : Prop :=
  (l.HoldsToken ∧ ¬ l.HoldsNothing ∧ ¬ l.HasFailed) ∨
    (¬ l.HoldsToken ∧ l.HoldsNothing ∧ ¬ l.HasFailed) ∨
    (¬ l.HoldsToken ∧ ¬ l.HoldsNothing ∧ l.HasFailed)

theorem IsRegular.isInOneState (h : l.IsRegular) : l.IsInOneState := by
  rcases h.state with hstate | hstate | hstate
  · exact Or.inl ⟨hstate, hstate.not_holdsNothing, hstate.not_hasFailed⟩
  · exact Or.inr (Or.inl ⟨fun h => h.not_holdsNothing hstate, hstate, hstate.not_hasFailed⟩)
  · exact Or.inr (Or.inr ⟨fun h => h.not_hasFailed hstate, fun h => h.not_hasFailed hstate, hstate⟩)

theorem IsRegular.holdsToken (h : l.IsRegular) (hfound : l.current.isFound = true) :
    l.HoldsToken := by
  rcases h.state with hstate | hstate | hstate
  · exact hstate
  · rw [hstate.current_eq] at hfound
    cases hfound
  · rw [hstate.current_eq] at hfound
    cases hfound

theorem IsRegular.current_eq (h : l.IsRegular) (hfound : l.current.isFound = false) :
    l.current = {} := by
  rcases h.state with hstate | hstate | hstate
  · cases hfound.symm.trans hstate.isFound
  · exact hstate.current_eq
  · exact hstate.current_eq

theorem IsRegular.current_of_error (h : l.IsRegular) {e : LexicalError}
    (herror : l.error = some e) :
    l.current = {} := by
  rcases h.state with hstate | hstate | hstate
  · cases herror.symm.trans hstate.error_eq
  · exact hstate.current_eq
  · exact hstate.current_eq

theorem isRegular_ofSource (source : List Char) : (ofSource source).IsRegular :=
  ⟨Nat.zero_le _, Or.inr (Or.inl ⟨rfl, rfl, Or.inl rfl⟩)⟩

/-! ## Looking for a token -/

theorem next_of_lexeme {gap text rest : List Char} {kind : Kind}
    (h : l.unread = gap ++ (text ++ rest)) (hgap : IsGap gap) (htext : IsLexeme kind text)
    (hends : EndsBefore kind rest) :
    l.next = ⟨l.source, l.pos + gap.length + text.length, Piece.token l.pos ⟨gap, kind, text⟩,
      none⟩ := by
  have hscan := scan_piece (p := ⟨gap, kind, text⟩) hgap htext hends l.pos
  rw [next, h, hscan]

theorem next_of_isGap (h : IsGap l.unread) :
    l.next = ⟨l.source, l.pos + l.unread.length, {}, none⟩ := by
  have hscan : scan l.pos l.unread = .finished (l.pos + l.unread.length) := by
    simpa [scan] using scan_gap_append h l.pos []
  rw [next, hscan]

theorem next_of_unexpected {gap rest : List Char} {c : Char} {fault : LexicalFault}
    (h : l.unread = gap ++ c :: rest) (hgap : IsGap gap) (hfault : IsFaultAfter [] c fault) :
    l.next = ⟨l.source, l.pos + gap.length, {}, some ⟨fault, l.pos + gap.length⟩⟩ := by
  obtain ⟨rfl, -⟩ := hfault.of_nil
  rw [next, h, scan_gap_append hgap, scan_unexpectedCharacter hfault]

theorem next_of_spoiled {gap text rest : List Char} {c : Char} {fault : LexicalFault}
    (h : l.unread = gap ++ (text ++ c :: rest)) (hgap : IsGap gap)
    (hfault : IsFaultAfter text c fault) (hne : text ≠ []) :
    l.next = ⟨l.source, l.pos + gap.length + text.length + 1, {},
      some ⟨fault, l.pos + gap.length + text.length⟩⟩ := by
  rw [next, h, scan_gap_append hgap, scan_spoiledLiteral hfault hne]

theorem source_next (l : Lexer) : l.next.source = l.source := by
  rw [next]
  split <;> rfl

theorem length_unread (l : Lexer) : l.unread.length = l.source.length - l.pos :=
  List.length_drop

/-- The cursor has not moved back, and the lexer is in one of the three states. -/
def IsRegularBehind (l l' : Lexer) : Prop :=
  l.pos ≤ l'.pos ∧ l'.IsRegular

theorem isRegularBehind_next_of_lexeme {gap text rest : List Char} {kind : Kind}
    (hpos : l.pos ≤ l.source.length) (h : l.unread = gap ++ (text ++ rest)) (hgap : IsGap gap)
    (htext : IsLexeme kind text) (hends : EndsBefore kind rest) : l.IsRegularBehind l.next := by
  have hnext := next_of_lexeme h hgap htext hends
  have htoken : (Piece.token l.pos ⟨gap, kind, text⟩).text l.source = text :=
    congrArg Word.text (Piece.word_token (p := ⟨gap, kind, text⟩) h)
  have hne : 0 < text.length := List.length_pos_iff.mpr htext.ne_nil
  have hlength := l.length_unread
  rw [h, List.length_append, List.length_append] at hlength
  have hholds : l.next.HoldsToken := by
    rw [hnext]
    constructor
    · simpa [Token.isFound, Piece.token] using htext.kind_ne_invalid
    · simp only [Piece.token]
      omega
    · simp only [Piece.token]
      omega
    · rfl
    · rw [htoken]
      exact htext
    · rfl
  have hbounds : l.pos ≤ l.next.pos ∧ l.next.pos ≤ l.next.source.length := by
    simp only [hnext]
    omega
  exact ⟨hbounds.1, hbounds.2, Or.inl hholds⟩

theorem isRegularBehind_next_of_isGap (hpos : l.pos ≤ l.source.length) (h : IsGap l.unread) :
    l.IsRegularBehind l.next := by
  have hnext := next_of_isGap h
  have hlength := l.length_unread
  have hend : l.next.pos = l.next.source.length := by
    simp only [hnext]
    omega
  have hholds : l.next.HoldsNothing := by
    refine ⟨?_, ?_, Or.inr hend⟩
    · rw [hnext]
    · rw [hnext]
  have hle : l.pos ≤ l.next.pos := by
    simp only [hnext]
    omega
  exact ⟨hle, Nat.le_of_eq hend, Or.inr (Or.inl hholds)⟩

theorem isRegularBehind_next_of_unexpected {gap rest : List Char} {c : Char} {fault : LexicalFault}
    (hpos : l.pos ≤ l.source.length) (h : l.unread = gap ++ c :: rest) (hgap : IsGap gap)
    (hfault : IsFaultAfter [] c fault) : l.IsRegularBehind l.next := by
  obtain ⟨rfl, hspace, hstart⟩ := hfault.of_nil
  have hlength := l.length_unread
  rw [h, List.length_append] at hlength
  have hc : l.source[l.pos + gap.length]? = some c := by
    have hdrop : l.source.drop l.pos = gap ++ c :: rest := h
    rw [← List.getElem?_drop, hdrop]
    simp
  rw [next_of_unexpected h hgap hfault]
  refine ⟨Nat.le_add_right _ _, ?_, Or.inr (Or.inr ⟨rfl, _, rfl, .unexpected hc hspace hstart⟩)⟩
  simp only
  omega

theorem isRegularBehind_next_of_spoiled {gap text rest : List Char} {c : Char}
    {fault : LexicalFault} (hpos : l.pos ≤ l.source.length)
    (h : l.unread = gap ++ (text ++ c :: rest)) (hgap : IsGap gap)
    (hfault : IsFaultAfter text c fault) (hne : text ≠ []) : l.IsRegularBehind l.next := by
  have hlength := l.length_unread
  rw [h, List.length_append, List.length_append, List.length_cons] at hlength
  have hsource : l.source = (l.source.take l.pos ++ gap) ++ (text ++ c :: rest) := by
    rw [List.append_assoc, ← h]
    exact (List.take_append_drop l.pos l.source).symm
  have hbefore : (l.source.take l.pos ++ gap).length = l.pos + gap.length := by
    rw [List.length_append, List.length_take_of_le hpos]
  rw [next_of_spoiled h hgap hfault hne]
  refine ⟨by simp only; omega, by simp only; omega, Or.inr (Or.inr ⟨rfl, _, rfl, ?_⟩)⟩
  exact .spoiled hsource hne hfault (by rw [hbefore])

/-- From anywhere inside the source, looking for a token ends in one of the three states. -/
theorem isRegularBehind_next (hpos : l.pos ≤ l.source.length) : l.IsRegularBehind l.next := by
  rcases scan_trichotomy l.unread with ⟨gap, kind, text, rest, h, hgap, htext, hends⟩ | hgap |
    ⟨gap, text, c, rest, fault, h, hgap, hfault⟩
  · exact isRegularBehind_next_of_lexeme hpos h hgap htext hends
  · exact isRegularBehind_next_of_isGap hpos hgap
  · by_cases hne : text = []
    · subst hne
      exact isRegularBehind_next_of_unexpected hpos h hgap hfault
    · exact isRegularBehind_next_of_spoiled hpos h hgap hfault hne

/-! ## Looking repeatedly -/

theorem source_steps (n : Nat) (l : Lexer) : (l.steps n).source = l.source := by
  induction n generalizing l with
  | zero => rfl
  | succ n ih => rw [steps, ih, source_next]

/-- However often a lexer looks for a token, its cursor stays inside the source and never goes back. -/
theorem pos_le_steps (hpos : l.pos ≤ l.source.length) (n : Nat) :
    l.pos ≤ (l.steps n).pos ∧ (l.steps n).pos ≤ l.source.length := by
  induction n generalizing l with
  | zero => exact ⟨Nat.le_refl _, hpos⟩
  | succ n ih =>
      obtain ⟨hle, hnext⟩ := isRegularBehind_next hpos
      obtain ⟨hle', hsteps⟩ := ih hnext.pos_le
      rw [source_next] at hsteps
      exact ⟨Nat.le_trans hle hle', hsteps⟩

/-- After a look the lexer is in one of the three states, however often it looks then. -/
theorem isRegular_steps_succ (hpos : l.pos ≤ l.source.length) (n : Nat) :
    (l.steps (n + 1)).IsRegular := by
  induction n generalizing l with
  | zero => exact (isRegularBehind_next hpos).2
  | succ n ih => exact ih (isRegularBehind_next hpos).2.pos_le

theorem IsRegular.steps (h : l.IsRegular) (n : Nat) : (l.steps n).IsRegular := by
  cases n with
  | zero => exact h
  | succ n => exact isRegular_steps_succ h.pos_le n

end Lexer

end LineCalculator
