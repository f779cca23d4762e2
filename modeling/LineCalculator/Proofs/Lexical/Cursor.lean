import LineCalculator.Proofs.Lexical.Spelling
import LineCalculator.Session

/-!
# A lexer in front of pieces

Every text is made up of pieces and of what ends them: spaces up to the end of the text, or a fault.
A lexer that stands in front of such a text meets one piece after the other, holds its token, and
shows the grammar the words of the pieces.  Positions that the grammar counts in words that are left
are thereby starts of tokens, or the end of the source.
-/

namespace LineCalculator

/-- What stands behind the last piece of a text, at a position: nothing but space, or a fault. -/
def EndsIn (pos : Nat) (rest : List Char) : Option LexicalError → Prop
  | none => IsGap rest
  | some e => ∃ gap text c after, rest = gap ++ (text ++ c :: after) ∧ IsGap gap ∧
      IsFaultAfter text c e.fault ∧ e.pos = pos + gap.length + text.length

/-- The text that starts at a position is made up of pieces and of what ends them. -/
def IsMadeOf (pos : Nat) (cs : List Char) (ps : List Piece) (ending : Option LexicalError) : Prop :=
  ∃ rest, cs = spell ps rest ∧ IsSpelling ps rest ∧ EndsIn (pos + spelledLength ps) rest ending

variable {pos : Nat} {cs : List Char} {p : Piece} {ps : List Piece} {ending : Option LexicalError}

theorem exists_isMadeOf (pos : Nat) (cs : List Char) : ∃ ps ending, IsMadeOf pos cs ps ending := by
  obtain ⟨ps, rest, hps, rfl, hgap | ⟨gap, text, c, after, fault, rfl, hgap, hfault⟩⟩ :=
    exists_spelling cs
  · exact ⟨ps, none, rest, rfl, hps, hgap⟩
  · exact ⟨ps, some ⟨fault, pos + spelledLength ps + gap.length + text.length⟩, _, rfl, hps,
      gap, text, c, after, rfl, hgap, hfault, rfl⟩

namespace IsMadeOf

theorem scanAll_eq (h : IsMadeOf pos cs ps ending) :
    scanAll pos cs = (spelledTokens pos ps, ending) := by
  obtain ⟨rest, rfl, hps, hends⟩ := h
  rw [scanAll_spell hps]
  cases ending with
  | none =>
      rw [scanAll_of_isGap hends]
      simp
  | some e =>
      obtain ⟨gap, text, c, after, rfl, hgap, hfault, hpos⟩ := hends
      rw [scanAll_of_fault hgap hfault, ← hpos]
      simp

theorem tokenize_eq_ok (h : IsMadeOf 0 cs ps none) :
    tokenize cs = .ok ((spelledTokens 0 ps).map Prod.fst) := by
  simp [tokenize, h.scanAll_eq]

theorem tokenize_eq_error {e : LexicalError} (h : IsMadeOf 0 cs ps (some e)) :
    tokenize cs = .error e := by
  simp [tokenize, h.scanAll_eq]

/-- The first piece of a text is what scanning finds, and the rest is made of the other pieces. -/
theorem scan_cons (h : IsMadeOf pos cs (p :: ps) ending) :
    ∃ rest, cs = p.gap ++ (p.text ++ rest) ∧ IsLexeme p.kind p.text ∧
      scan pos cs = .token (p.token pos) p.text (pos + p.gap.length + p.text.length) rest ∧
      IsMadeOf (pos + p.gap.length + p.text.length) rest ps ending := by
  obtain ⟨rest, rfl, ⟨hgap, htext, hends, hps⟩, hending⟩ := h
  refine ⟨spell ps rest, rfl, htext, scan_piece hgap htext hends pos, rest, rfl, hps, ?_⟩
  simpa [spelledLength, Nat.add_assoc] using hending

/-- Scanning finds no token where no piece is left. -/
theorem scan_nil (h : IsMadeOf pos cs [] ending) :
    (∃ pos', ending = none ∧ scan pos cs = .finished pos') ∨
      ∃ e pos' rest, ending = some e ∧ scan pos cs = .failed e pos' rest := by
  have hall := h.scanAll_eq
  cases hscan : scan pos cs with
  | token t text pos' rest =>
      rw [scanAll_of_token hscan] at hall
      cases hall
  | finished pos' =>
      rw [scanAll_of_finished hscan] at hall
      exact Or.inl ⟨pos', (Prod.mk.inj hall).2.symm, rfl⟩
  | failed e pos' rest =>
      rw [scanAll_of_failed hscan] at hall
      exact Or.inr ⟨e, pos', rest, (Prod.mk.inj hall).2.symm, rfl⟩

end IsMadeOf

/-- The fault of a source stands at one of its characters. -/
theorem pos_lt_of_tokenize {fault : LexicalError} (h : tokenize cs = .error fault) :
    fault.pos < cs.length := by
  obtain ⟨ps, ending, hmade⟩ := exists_isMadeOf 0 cs
  cases ending with
  | none => cases h.symm.trans hmade.tokenize_eq_ok
  | some e =>
      cases h.symm.trans hmade.tokenize_eq_error
      obtain ⟨rest, rfl, -, gap, text, c, after, rfl, -, -, hpos⟩ := hmade
      rw [length_spell, hpos]
      simp only [List.length_append, List.length_cons]
      omega

/-! ## Words of tokens -/

/-- A token of a piece covers the text of the piece. -/
theorem Piece.word_token {source rest : List Char}
    (h : source.drop pos = p.gap ++ (p.text ++ rest)) : (p.token pos).word source = p.word := by
  have htext : (p.token pos).text source = p.text := by
    rw [Token.text, Piece.token, Text.slice_ofNat, List.drop_take, ← List.drop_drop, h,
      List.drop_left, Nat.add_sub_cancel_left, List.take_left]
  rw [Token.word, htext]
  rfl

theorem words_of_spelledTokens {source rest : List Char} (h : source.drop pos = spell ps rest) :
    (spelledTokens pos ps).map (fun t => t.1.word source) = ps.map Piece.word := by
  induction ps generalizing pos with
  | nil => rfl
  | cons p ps ih =>
      have hrest : source.drop (pos + p.gap.length + p.text.length) = spell ps rest := by
        rw [← List.drop_drop, ← List.drop_drop, h, spell, List.drop_left, List.drop_left]
      simp only [spelledTokens, List.map_cons, Piece.word_token h, ih hrest]

/-- The words of the tokens of a source are the words of its pieces. -/
theorem IsMadeOf.words_of_tokens (h : IsMadeOf 0 cs ps ending) :
    ((spelledTokens 0 ps).map Prod.fst).map (Token.word cs) = ps.map Piece.word := by
  obtain ⟨rest, hsource, -⟩ := h
  have hdrop : cs.drop 0 = spell ps rest := hsource
  rw [List.map_map]
  exact words_of_spelledTokens hdrop

theorem words_of_texts (pos : Nat) (ps : List Piece) :
    (spelledTokens pos ps).map (fun t => (⟨t.1.kind, t.2, t.1.value⟩ : Word)) =
      ps.map Piece.word := by
  induction ps generalizing pos with
  | nil => rfl
  | cons p ps ih =>
      simp only [spelledTokens, List.map_cons, ih]
      rfl

/-! ## The lexer -/

/-- The start of the first of some pieces, or the end of the source when there are none. -/
def placeOf (source : List Char) (pos : Nat) : List Piece → Int
  | [] => source.length
  | p :: _ => (p.token pos).start

/-- The token of the first of some pieces at a position, or the default one when there are none. -/
def firstToken (pos : Nat) : List Piece → Token
  | [] => {}
  | p :: _ => p.token pos

namespace Lexer

/-- What the lexer has not passed over is made of the pieces. -/
def Faces (l : Lexer) (ps : List Piece) (ending : Option LexicalError) : Prop :=
  IsMadeOf l.pos l.unread ps ending

variable {l : Lexer}

theorem Faces.next_cons (h : l.Faces (p :: ps) ending) :
    l.next = ⟨l.source, l.pos + p.gap.length + p.text.length, p.token l.pos, none⟩ ∧
      l.next.Faces ps ending := by
  obtain ⟨rest, hunread, -, hscan, hrest⟩ := h.scan_cons
  have hnext : l.next = ⟨l.source, l.pos + p.gap.length + p.text.length, p.token l.pos, none⟩ := by
    rw [next, hscan]
  refine ⟨hnext, ?_⟩
  have hbehind : l.next.unread = rest := by
    rw [hnext, unread, ← List.drop_drop, ← List.drop_drop]
    rw [unread] at hunread
    rw [hunread, List.drop_left, List.drop_left]
  rw [Faces, hbehind, hnext]
  exact hrest

theorem Faces.next_nil (h : l.Faces [] ending) :
    l.next.source = l.source ∧ l.next.current = {} ∧ l.next.error = ending := by
  rcases h.scan_nil with ⟨pos', rfl, hscan⟩ | ⟨e, pos', rest, rfl, hscan⟩
  · simp [next, hscan]
  · simp [next, hscan]

theorem isFound_token (h : IsMadeOf pos cs (p :: ps) ending) : (p.token pos).isFound = true := by
  obtain ⟨-, -, htext, -⟩ := h.scan_cons
  simpa [Token.isFound, Piece.token] using htext.kind_ne_invalid

/-- The grammar sees the words of the pieces. -/
theorem Faces.words_next (h : l.Faces ps ending) : l.next.words = (ps.map Piece.word, ending) := by
  cases ps with
  | nil =>
      obtain ⟨-, hcurrent, herror⟩ := h.next_nil
      rw [words, hcurrent, herror]
      rfl
  | cons p ps =>
      obtain ⟨hnext, hrest⟩ := h.next_cons
      obtain ⟨rest, hunread, -⟩ := h.scan_cons
      rw [words, hrest.scanAll_eq, hnext, if_pos (isFound_token h), List.map_cons,
        Piece.word_token hunread]
      simp only [words_of_texts]

theorem steps_add (m n : Nat) (l : Lexer) : l.steps (m + n) = (l.steps m).steps n := by
  induction m generalizing l with
  | zero => rw [Nat.zero_add, steps]
  | succ m ih => rw [Nat.succ_add, steps, steps, ih]

/-- After as many steps as there are pieces in front of a place, the lexer stands at that place. -/
theorem Faces.steps {before after : List Piece} (h : l.Faces (before ++ after) ending) :
    (l.steps before.length).Faces after ending ∧ (l.steps before.length).source = l.source ∧
      (l.steps before.length).pos = l.pos + spelledLength before := by
  induction before generalizing l with
  | nil => exact ⟨h, rfl, rfl⟩
  | cons p before ih =>
      obtain ⟨hnext, hrest⟩ := h.next_cons
      obtain ⟨hfaces, hsource, hpos⟩ := ih hrest
      rw [List.length_cons, Lexer.steps]
      refine ⟨hfaces, ?_, ?_⟩
      · rw [hsource, hnext]
      · rw [hpos, hnext]
        simp [spelledLength, Nat.add_assoc]

/-- One step later it holds the token of the piece there, or none behind the last piece. -/
theorem Faces.current_steps {before after : List Piece} (h : l.Faces (before ++ after) ending) :
    (l.steps (before.length + 1)).source = l.source ∧
      (l.steps (before.length + 1)).current =
        firstToken (l.pos + spelledLength before) after := by
  obtain ⟨hfaces, hsource, hpos⟩ := h.steps
  rw [steps_add, Lexer.steps, Lexer.steps, ← hsource, ← hpos]
  cases after with
  | nil =>
      obtain ⟨hsource', hcurrent, -⟩ := hfaces.next_nil
      exact ⟨hsource', hcurrent⟩
  | cons p ps =>
      rw [hfaces.next_cons.1]
      exact ⟨rfl, rfl⟩

/-- Behind the last piece it meets what ends the pieces. -/
theorem Faces.error_steps (h : l.Faces ps ending) : (l.steps (ps.length + 1)).error = ending := by
  have hall : l.Faces (ps ++ []) ending := by rwa [List.append_nil]
  rw [steps_add, Lexer.steps, Lexer.steps]
  exact hall.steps.1.next_nil.2.2

theorem Faces.place_steps {before after : List Piece} (h : l.Faces (before ++ after) ending) :
    (l.steps (before.length + 1)).place =
      placeOf l.source (l.pos + spelledLength before) after := by
  obtain ⟨hsource, hcurrent⟩ := h.current_steps
  rw [place, hcurrent, hsource]
  cases after with
  | nil => rfl
  | cons p ps =>
      obtain ⟨hfaces, -, hpos⟩ := h.steps
      rw [← hpos, firstToken, if_pos (isFound_token hfaces)]
      rfl

end Lexer

/-! ## Lines with given words -/

/-- A piece for a word, with a space in front. -/
def Word.piece (w : Word) : Piece :=
  ⟨[' '], w.kind, w.text⟩

theorem endsBefore_space (kind : Kind) (rest : List Char) : EndsBefore kind (' ' :: rest) := by
  intro c hc
  cases hc
  cases kind <;> simp [Continues]

theorem isSpelling_spaced {ws : List Word} (h : ∀ w ∈ ws, IsLexeme w.kind w.text) :
    IsSpelling (ws.map Word.piece) [] := by
  induction ws with
  | nil => trivial
  | cons w ws ih =>
      obtain ⟨hw, hws⟩ := List.forall_mem_cons.mp h
      refine ⟨isGap_space, hw, ?_, ih hws⟩
      cases ws with
      | nil => simp [EndsBefore, spell]
      | cons w' ws => exact endsBefore_space _ _

/-- There is a line with any given lexemes as its words. -/
theorem exists_line (ws : List Word)
    (h : ∀ w ∈ ws, IsLexeme w.kind w.text ∧ w.value = lexemeValue w.kind w.text) :
    ∃ line ts, tokenize line = .ok ts ∧ ts.map (Token.word line) = ws := by
  have hmade : IsMadeOf 0 (spell (ws.map Word.piece) []) (ws.map Word.piece) none :=
    ⟨[], rfl, isSpelling_spaced fun w hw => (h w hw).1, isGap_nil⟩
  have hsame : ∀ w ∈ ws, (Piece.word ∘ Word.piece) w = id w := by
    intro w hw
    simp [Piece.word, Word.piece, ← (h w hw).2]
  refine ⟨_, _, hmade.tokenize_eq_ok, ?_⟩
  rw [hmade.words_of_tokens, List.map_map, List.map_congr_left hsame, List.map_id]

end LineCalculator
