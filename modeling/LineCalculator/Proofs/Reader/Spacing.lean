import LineCalculator.Proofs.Lexical.Joining
import LineCalculator.Proofs.Reader.Relabelling

/-!
# Spaces between lexemes

Spaces at a joint over which no lexeme reaches move the tokens and the fault behind them, and
readers do not see where a word stands.  So reading leads to the same tree, or fails for the same
reason at the place to which the old one has moved.
-/

namespace LineCalculator

variable {a b gap source : List Char} {before after before' after' : List Piece} {n k : Nat}

/-- Where a position is when everything from position `n` on moves `k` positions further on. -/
def movedPlace (n k : Nat) (position : Int) : Int :=
  if position < n then position else position + k

/-- An error when everything from position `n` on moves `k` positions further on. -/
def ExprError.moved (n k : Nat) : ExprError → ExprError
  | lexical e => .lexical (e.moved n k)
  | grammatical fault position => .grammatical fault (movedPlace n k position)
  | e => e

/-- The error is a fault of the text. -/
def ExprError.IsLexical (e : ExprError) : Prop :=
  ∃ fault, e = .lexical fault

theorem LexicalError.fault_moved (n k : Nat) (e : LexicalError) :
    (e.moved n k).fault = e.fault := by
  rw [moved, apply_ite LexicalError.fault, later, ite_self]

theorem LexicalError.pos_moved (n k : Nat) (e : LexicalError) :
    ((e.moved n k).pos : Int) = movedPlace n k e.pos := by
  by_cases h : e.pos < n
  · rw [moved, if_pos h, movedPlace, if_pos (Int.ofNat_lt.mpr h)]
  · rw [moved, if_neg h, movedPlace, if_neg (mt Int.ofNat_lt.mp h), later, Int.natCast_add]

theorem Token.start_moved (n k : Nat) (t : Token) :
    (t.moved n k).start = movedPlace n k t.start := by
  by_cases h : t.start < n
  · rw [moved, if_pos h, movedPlace, if_pos h]
  · rw [moved, if_neg h, movedPlace, if_neg h, later]

theorem Token.kind_moved (n k : Nat) (t : Token) : (t.moved n k).kind = t.kind := by
  rw [moved, apply_ite Token.kind, later, ite_self]

theorem Token.value_moved (n k : Nat) (t : Token) : (t.moved n k).value = t.value := by
  rw [moved, apply_ite Token.value, later, ite_self]

theorem ExprError.message_moved (n k : Nat) (e : ExprError) :
    (e.moved n k).message = e.message := by
  cases e with
  | lexical e => exact congrArg LexicalFault.message (e.fault_moved n k)
  | grammatical | unknown | tooDeep => rfl

theorem ExprError.isLexical_moved (n k : Nat) (e : ExprError) :
    (e.moved n k).IsLexical ↔ e.IsLexical := by
  cases e <;> simp [moved, IsLexical]

theorem ExprError.moved_eq_tooDeep_iff (n k : Nat) (e : ExprError) :
    e.moved n k = .tooDeep ↔ e = .tooDeep := by
  cases e <;> simp [moved]

theorem ExprError.position?_moved (n k : Nat) (e : ExprError) :
    (e.moved n k).position? = e.position?.map (movedPlace n k) := by
  cases e with
  | lexical e => exact congrArg some (e.pos_moved n k)
  | grammatical | unknown | tooDeep => rfl

/-! ## Readers do not see the move -/

/-- Words stay, and faults from position `n` on move `k` positions further on. -/
def Relabelling.moves (n k : Nat) : Relabelling :=
  ⟨id, id, LexicalError.moved n k⟩

theorem Relabelling.isFaithful_moves (n k : Nat) : (moves n k).IsFaithful where
  kind_word _ := rfl
  value_word _ := rfl
  text_word _ _ := rfl
  kind_eq _ _ := rfl
  kind_inj _ _ h := h
  closer?_kind k := (congrFun Option.map_id k.closer?).symm
  frames_fault e := congrArg LexicalFault.frames (e.fault_moved n k)

theorem Relabelling.grammarFault_moves (n k : Nat) (fault : GrammarFault) :
    (moves n k).grammarFault fault = fault := by
  cases fault <;> simp [grammarFault, moves]

theorem answer_moves (v : Verdict Expr) (place : Int) :
    ((Relabelling.moves n k).verdict v).answer (movedPlace n k place) =
      (v.answer place).mapError (ExprError.moved n k) := by
  cases v with
  | read e => rfl
  | failed failure =>
      cases failure with
      | lexical e => rfl
      | refused fault =>
          rw [Relabelling.verdict, Relabelling.grammarFault_moves]
          rfl
      | tooDeep => rfl

/-! ## Places -/

theorem getElem?_spelledTokens (before after : List Piece) (p : Piece) :
    (spelledTokens 0 (before ++ p :: after))[before.length]? =
      some (p.token (spelledLength before), p.text) := by
  have hlength := length_spelledTokens 0 before
  rw [spelledTokens_append, Nat.zero_add, List.getElem?_append_right hlength.le,
    hlength, Nat.sub_self]
  rfl

/-- The places behind as many pieces as before have moved with the tokens. -/
theorem placeOf_moved (hlength : before'.length = before.length)
    (htokens : spelledTokens 0 (before' ++ after') =
      (spelledTokens 0 (before ++ after)).map (Prod.map (Token.moved a.length gap.length) id)) :
    placeOf (a ++ (gap ++ b)) (spelledLength before') after' =
      movedPlace a.length gap.length (placeOf (a ++ b) (spelledLength before) after) := by
  have hcount := congrArg List.length htokens
  simp only [List.length_map, length_spelledTokens, List.length_append] at hcount
  -- the place is where the next token starts, or the end of the source when none is left
  cases after with
  | nil =>
      have hnil : after' = [] := by
        apply List.eq_nil_of_length_eq_zero
        simp only [List.length_nil] at hcount
        omega
      have hnot : ¬ ((a ++ b).length : Int) < a.length := by
        rw [List.length_append]
        omega
      rw [hnil, placeOf, placeOf, movedPlace, if_neg hnot]
      simp only [List.length_append]
      omega
  | cons p after =>
      obtain ⟨p', after', rfl⟩ : ∃ p' after'', after' = p' :: after'' := by
        apply List.exists_cons_of_length_pos
        simp only [List.length_cons] at hcount
        omega
      have hthere := getElem?_spelledTokens before' after' p'
      rw [hlength, htokens, List.getElem?_map, getElem?_spelledTokens] at hthere
      have hstart := congrArg (fun t => t.1.start) (Option.some.inj hthere)
      exact hstart.symm.trans (Token.start_moved _ _ _)

/-! ## Reading a line with spaces put in -/

theorem readLine_insert [Limits] (hapart : Apart a b) (hgap : IsGap gap) :
    (readLine (a ++ (gap ++ b))).result =
      (readLine (a ++ b)).result.mapError (ExprError.moved a.length gap.length) := by
  obtain ⟨ps, ending, hmade⟩ := exists_isMadeOf 0 (a ++ b)
  obtain ⟨ps', ending', hmade'⟩ := exists_isMadeOf 0 (a ++ (gap ++ b))
  have hscan := scanAll_insert hapart hgap
  rw [hmade.scanAll_eq, hmade'.scanAll_eq] at hscan
  obtain ⟨htokens, rfl⟩ := Prod.mk.inj hscan
  have hwords : ps'.map Piece.word = (ps.map Piece.word).map id := by
    rw [List.map_id, ← words_of_texts 0 ps, ← words_of_texts 0 ps', htokens, List.map_map]
    apply List.map_congr_left
    intro t _
    simp [Token.kind_moved, Token.value_moved]
  rcases (Relabelling.isFaithful_moves a.length gap.length).readLine_eq hmade hmade' hwords with
    ⟨hresult, hresult'⟩ |
      ⟨before, after, before', after', v, rfl, rfl, hlength, hresult, hresult'⟩
  · rw [hresult, hresult']
    rfl
  · rw [hresult, hresult', placeOf_moved hlength htokens, answer_moves]

/-- Spaces at a joint of a source do not matter, unless a name or a numeral reaches over the joint:
the same tree is read, or reading fails with the same message for the same sort of reason, at the
place to which the spaces have moved the old one. -/
theorem readLine_spaced [Limits] (hapart : Apart a b) (hgap : IsGap gap) :
    (∀ t, (readLine (a ++ b)).result = .ok t → (readLine (a ++ (gap ++ b))).result = .ok t) ∧
      ∀ e, (readLine (a ++ b)).result = .error e → ∃ e',
        (readLine (a ++ (gap ++ b))).result = .error e' ∧ e'.message = e.message ∧
        (e'.IsLexical ↔ e.IsLexical) ∧ (e' = .tooDeep ↔ e = .tooDeep) ∧
        e'.position? = e.position?.map (movedPlace a.length gap.length) := by
  rw [readLine_insert hapart hgap]
  constructor
  · intro t ht
    rw [ht]
    rfl
  · intro e he
    rw [he]
    exact ⟨e.moved a.length gap.length, rfl, e.message_moved _ _, e.isLexical_moved _ _,
      e.moved_eq_tooDeep_iff _ _, e.position?_moved _ _⟩

/-- Spaces of every sort in front of the sign that is objected to, which stands behind them then. -/
theorem readLine_spaced_tab : Apart ['2', '*'] ['/', '$'] ∧ IsGap ['\t', '\x07'] ∧
    ∃ e', (readLine ['2', '*', '\t', '\x07', '/', '$']).result = .error e' ∧
      e'.message = "Unexpected '/'" ∧ e'.position? = some 4 := by
  have hapart : Apart ['2', '*'] ['/', '$'] := apart_of_last (by decide) ['2'] _
  have hgap : IsGap ['\t', '\x07'] := by
    simp [IsGap, spaces]
  have hresult : (readLine (['2', '*'] ++ ['/', '$'])).result =
      .error (.grammatical (.unexpected (some ⟨.slash, ['/'], 0⟩)) 2) := by decide +kernel
  obtain ⟨e', he', hmessage, -, -, hposition⟩ := (readLine_spaced hapart hgap).2 _ hresult
  exact ⟨hapart, hgap, e', he', hmessage, hposition⟩

end LineCalculator
