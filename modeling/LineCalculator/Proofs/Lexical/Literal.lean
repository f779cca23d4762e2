import LineCalculator.Proofs.Lexical.States
import LineCalculator.Proofs.Number.Denotation
import LineCalculator.Proofs.Reader.Line

/-!
# Literals

A lexer yields tokens one at a time, all at once, and again after a fault, when it goes on in the
middle of a run of letters and digits.  Wherever it stands, a number that it yields covers a numeral,
and its value is the double that the number denoted by the numeral rounds to.
-/

namespace LineCalculator

open Binary64 Decimal

/-- A token that a source yields: held by a lexer at some time, taken with all that follow at some
time, or one of the tokens of a source without fault. -/
inductive IsTokenOf (source : List Char) : Token → Prop
  | held (n : Nat) : IsTokenOf source ((Lexer.ofSource source).steps n).current
  | drained {t : Token} (n : Nat) (h : t ∈ ((Lexer.ofSource source).steps n).drain.1) :
      IsTokenOf source t
  | tokenized {ts : List Token} {t : Token} (hts : tokenize source = .ok ts) (h : t ∈ ts) :
      IsTokenOf source t

variable {source : List Char} {t : Token}

/-! ## Tokens cover lexemes -/

theorem Lexer.isLexical_next {l : Lexer} (h : l.next.current.isFound = true) :
    (l.next.current.word l.source).IsLexical := by
  obtain ⟨ps, ending, hfaces⟩ := exists_isMadeOf l.pos l.unread
  cases ps with
  | nil =>
      rw [(Faces.next_nil hfaces).2.1] at h
      cases h
  | cons p ps =>
      obtain ⟨rest, hunread, htext, -⟩ := hfaces.scan_cons
      rw [(Faces.next_cons hfaces).1, Piece.word_token hunread]
      exact ⟨htext, rfl⟩

theorem isLexical_of_mem_scanAll (pos : Nat)
    (h : t ∈ (scanAll pos (source.drop pos)).1.map Prod.fst) : (t.word source).IsLexical := by
  obtain ⟨ps, ending, hmade⟩ := exists_isMadeOf pos (source.drop pos)
  rw [hmade.scanAll_eq] at h
  obtain ⟨rest, hsource, hspelling, -⟩ := hmade
  obtain ⟨found, hfound, rfl⟩ := List.mem_map.mp h
  refine hspelling.isLexical _ ?_
  rw [← words_of_spelledTokens hsource]
  exact List.mem_map_of_mem hfound

/-- Every token that a source yields covers a lexeme and carries its value. -/
theorem IsTokenOf.isLexical (h : IsTokenOf source t) (hfound : t.isFound = true) :
    (t.word source).IsLexical := by
  cases h with
  | held n =>
      cases n with
      | zero => cases hfound
      | succ n =>
          rw [Lexer.steps_add] at hfound ⊢
          have hword := Lexer.isLexical_next hfound
          rw [Lexer.source_steps] at hword
          exact hword
  | drained n hmem =>
      have hword := isLexical_of_mem_scanAll _ hmem
      rw [Lexer.source_steps] at hword
      exact hword
  | tokenized hts hmem =>
      rw [← tokensOf_eq_of_tokenize hts] at hmem
      exact isLexical_of_mem_scanAll 0 hmem

/-! ## Numbers -/

/-- A number that a source yields covers a numeral and has been read from it. -/
theorem IsTokenOf.exists_denotes (h : IsTokenOf source t) (hkind : t.kind = .number) :
    IsLexeme .number (t.text source) ∧ t.value = read (t.text source) ∧
      ∃ q, Denotes (t.text source) q := by
  have hfound : t.isFound = true := by
    rw [Token.isFound, hkind]
    rfl
  obtain ⟨hlexeme, hvalue⟩ := h.isLexical hfound
  have hnumber : IsLexeme .number (t.text source) := hkind ▸ hlexeme
  refine ⟨hnumber, ?_, ?_⟩
  · rw [lexemeValue] at hvalue
    exact hvalue.trans (if_pos hkind)
  · generalize t.text source = text at hnumber
    cases hnumber with
    | mark hmark => exact absurd rfl (kind_of_ofMark? hmark).2.2
    | number hne hdigits hpoint => exact Decimal.exists_denotes hne hdigits hpoint

theorem IsLexeme.eq_point_or_exists_digit {text : List Char} (h : IsLexeme .number text) :
    text = ['.'] ∨ ∃ c ∈ text, c.isDigit = true := by
  cases h with
  | mark hmark => exact absurd rfl (kind_of_ofMark? hmark).2.2
  | number hne hdigits hpoint =>
      by_cases hdigit : ∃ c ∈ text, c.isDigit = true
      · exact Or.inr hdigit
      · have hpoints : ∀ c ∈ text, c = '.' :=
          fun c hc => (hdigits c hc).resolve_left fun h => hdigit ⟨c, hc, h⟩
        have hcount : text.count '.' = text.length :=
          List.count_eq_length.mpr fun c hc => (hpoints c hc).symm
        obtain ⟨c, cs, rfl⟩ := List.exists_cons_of_ne_nil hne
        rw [hcount, List.length_cons] at hpoint
        obtain rfl : cs = [] := List.eq_nil_of_length_eq_zero (by omega)
        exact Or.inl (by rw [hpoints c (List.mem_singleton_self c)])

/-- The value of a number token is the double nearest to what its text denotes.  So zeros in front of
it and behind its fraction do not change the value, and larger numbers do not get smaller ones. -/
theorem isNearestDouble_of_isTokenOf (h : IsTokenOf source t) (hkind : t.kind = .number) :
    (t.text source = ['.'] ∨ ∃ c ∈ t.text source, c.isDigit = true) ∧
    ∃ q, Denotes (t.text source) q ∧ IsNearestDouble q t.value ∧
      ∀ source' t', IsTokenOf source' t' → t'.kind = .number →
        (∀ n, t'.text source' = List.replicate n '0' ++ t.text source → t'.value = t.value) ∧
        (∀ n, '.' ∈ t.text source → t'.text source' = t.text source ++ List.replicate n '0' →
          t'.value = t.value) ∧
        ∀ q', Denotes (t'.text source') q' → q ≤ q' → t.value ≤ t'.value := by
  obtain ⟨hlexeme, hvalue, q, hq⟩ := h.exists_denotes hkind
  refine ⟨hlexeme.eq_point_or_exists_digit, q, hq, hvalue ▸ hq.isNearestDouble_read, ?_⟩
  intro source' t' h' hkind'
  obtain ⟨-, hvalue', -⟩ := h'.exists_denotes hkind'
  rw [hvalue, hvalue']
  refine ⟨?_, ?_, ?_⟩
  · intro n htext
    rw [htext]
    exact (hq.zeros_append n).read_eq_read hq
  · intro n hpoint htext
    rw [htext]
    exact (hq.append_zeros hpoint n).read_eq_read hq
  · exact fun q' hq' hle => hq.read_le_read hq' hle

/-- After a fault a lexer goes on behind the letter that spoiled the literal. -/
theorem isNearestDouble_of_isTokenOf_resumed :
    ∃ t, IsTokenOf ['1', 'a', '.', '5'] t ∧ t.kind = .number ∧ IsNearestDouble (1 / 2) t.value := by
  have hkind : ((Lexer.ofSource ['1', 'a', '.', '5']).steps 2).current.kind = .number := by
    decide +kernel
  have htext : ((Lexer.ofSource ['1', 'a', '.', '5']).steps 2).current.text ['1', 'a', '.', '5'] =
      ['.', '5'] := by decide +kernel
  obtain ⟨-, q, hq, hnearest, -⟩ := isNearestDouble_of_isTokenOf (.held 2) hkind
  have hdigits : numeralDigits ['.', '5'] = 5 ∧ fractionPart ['.', '5'] = ['5'] := by decide
  have hhalf : q = 1 / 2 := by
    rw [hq.eq_div, htext, hdigits.1, hdigits.2]
    norm_num
  exact ⟨_, .held 2, hkind, hhalf ▸ hnearest⟩

end LineCalculator
