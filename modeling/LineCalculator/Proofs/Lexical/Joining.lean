import LineCalculator.Proofs.Lexical.Cursor

/-!
# Texts put together

When two texts are put together, the lexemes of both stay what they are unless a lexeme reaches over
the joint.  None does if the characters at the joint are not both of the kind that names and
numerals are made of.  Only the first text has to be free of faults for this, since nothing behind a
fault is looked at.

Spaces at such a joint move everything behind them and change nothing else.
-/

namespace LineCalculator

variable {pos : Nat} {a b gap rest : List Char} {ps : List Piece}

/-- The characters at the joint of two texts are not both letters, digits or points. -/
def Apart (a b : List Char) : Prop :=
  ∀ c ∈ a.getLast?, ∀ d ∈ b.head?, ¬ (isLiteralChar c = true ∧ isLiteralChar d = true)

theorem Apart.of_append {before : List Char} (h : Apart (before ++ a) b) : Apart a b := by
  intro c hc
  apply h c
  rw [List.getLast?_append, Option.mem_def.mp hc]
  rfl

theorem apart_of_head {d : Char} (hd : isLiteralChar d = false) (a b : List Char) :
    Apart a (d :: b) := by
  intro c _ d' hd' hliteral
  rw [← Option.some.inj hd', hd] at hliteral
  exact Bool.false_ne_true hliteral.2

theorem apart_of_last {c : Char} (hc : isLiteralChar c = false) (a b : List Char) :
    Apart (a ++ [c]) b := by
  intro c' hc' d _ hliteral
  rw [List.getLast?_concat] at hc'
  rw [← Option.some.inj hc', hc] at hliteral
  exact Bool.false_ne_true hliteral.1

theorem isLiteralChar_of_mem_spaces {c : Char} (h : c ∈ spaces) : isLiteralChar c = false := by
  obtain ⟨-, hdigit, hletter, hpoint⟩ := spaces_facts c h
  simp [isLiteralChar, Char.isAlphanum, hdigit, hletter, hpoint]

theorem Apart.insert_gap (h : Apart a b) (hgap : IsGap gap) : Apart a (gap ++ b) := by
  by_cases hnil : gap = []
  · rw [hnil]
    exact h
  · obtain ⟨c, gap', rfl⟩ := List.exists_cons_of_ne_nil hnil
    exact apart_of_head (isLiteralChar_of_mem_spaces (hgap c (by simp))) a _

/-! ## Lexemes at a joint -/

theorem IsLexeme.endsBefore {kind : Kind} {text : List Char} (h : IsLexeme kind text)
    (hapart : Apart text b) : EndsBefore kind b := by
  have hlast := List.getLast?_eq_getLast_of_ne_nil h.ne_nil
  have hmem : text.getLast h.ne_nil ∈ text := List.getLast_mem h.ne_nil
  intro d hd hcontinues
  apply hapart _ hlast d hd
  cases h with
  | mark hmark => exact absurd hcontinues (endsBefore_of_ofMark? hmark b d hd)
  | name _ hletters =>
      have hletter : d.isAlpha = true := hcontinues
      simp [isLiteralChar, Char.isAlphanum, hletters _ hmem, hletter]
  | number _ hdigits =>
      exact ⟨isLiteralChar_of_isDigit_or (hdigits _ hmem), isLiteralChar_iff.mpr hcontinues⟩

theorem spell_append_text (ps : List Piece) (rest b : List Char) :
    spell ps rest ++ b = spell ps (rest ++ b) := by
  induction ps with
  | nil => rfl
  | cons p ps ih => simp [spell, ih]

/-- Pieces stay well formed when a text that stands apart follows. -/
theorem IsSpelling.append_text (h : IsSpelling ps rest) (hapart : Apart (spell ps rest) b) :
    IsSpelling ps (rest ++ b) := by
  induction ps with
  | nil => trivial
  | cons p ps ih =>
      obtain ⟨hgap, htext, hends, hps⟩ := h
      have hapart' : Apart (p.text ++ spell ps rest) b := hapart.of_append
      refine ⟨hgap, htext, ?_, ih hps hapart'.of_append⟩
      rw [← spell_append_text]
      by_cases hnil : spell ps rest = []
      · rw [hnil, List.append_nil] at hapart'
        rw [hnil]
        exact htext.endsBefore hapart'
      · intro d hd
        rw [List.head?_append_of_ne_nil _ hnil] at hd
        exact hends d hd

/-! ## Scanning over a joint -/

theorem scanAll_gap_append (hgap : IsGap gap) (pos : Nat) (cs : List Char) :
    scanAll pos (gap ++ cs) = scanAll (pos + gap.length) cs := by
  have hscan := scan_gap_append hgap pos cs
  cases hfound : scan (pos + gap.length) cs with
  | token t text pos' rest =>
      rw [scanAll_of_token hfound, scanAll_of_token (hscan.trans hfound)]
  | finished pos' => rw [scanAll_of_finished hfound, scanAll_of_finished (hscan.trans hfound)]
  | failed e pos' rest => rw [scanAll_of_failed hfound, scanAll_of_failed (hscan.trans hfound)]

/-- Behind a text without faults scanning goes on as if it started there. -/
theorem scanAll_append {ts : List (Token × List Char)} (h : scanAll pos a = (ts, none))
    (hapart : Apart a b) :
    scanAll pos (a ++ b) =
      (ts ++ (scanAll (pos + a.length) b).1, (scanAll (pos + a.length) b).2) := by
  obtain ⟨ps, ending, hmade⟩ := exists_isMadeOf pos a
  obtain ⟨rfl, rfl⟩ := Prod.mk.inj (hmade.scanAll_eq.symm.trans h)
  obtain ⟨gap, rfl, hps, hgap⟩ := hmade
  have hgap' : IsGap gap := hgap
  rw [spell_append_text, scanAll_spell (hps.append_text hapart), scanAll_gap_append hgap',
    length_spell, Nat.add_assoc]

/-- Pieces in front of anything stay well formed when a text follows it: only the first character
behind a lexeme matters to it. -/
theorem IsSpelling.append_of_ne_nil (h : IsSpelling ps rest) (hne : rest ≠ []) (b : List Char) :
    IsSpelling ps (rest ++ b) := by
  induction ps with
  | nil => trivial
  | cons p ps ih =>
      obtain ⟨hgap, htext, hends, hps⟩ := h
      have hspell : spell ps rest ≠ [] := by
        rw [← List.length_pos_iff, length_spell]
        have hpos := List.length_pos_iff.mpr hne
        omega
      refine ⟨hgap, htext, ?_, ih hps⟩
      rw [← spell_append_text]
      intro c hc
      rw [List.head?_append_of_ne_nil _ hspell] at hc
      exact hends c hc

/-- Nothing behind a fault is looked at. -/
theorem scanAll_append_of_fault {ts : List (Token × List Char)} {e : LexicalError}
    (h : scanAll pos a = (ts, some e)) (b : List Char) : scanAll pos (a ++ b) = (ts, some e) := by
  obtain ⟨ps, ending, hmade⟩ := exists_isMadeOf pos a
  obtain ⟨rfl, rfl⟩ := Prod.mk.inj (hmade.scanAll_eq.symm.trans h)
  obtain ⟨rest, rfl, hps, gap, text, c, after, rfl, hgap, hfault, hpos⟩ := hmade
  have hne : gap ++ (text ++ c :: after) ≠ [] := by simp
  have hmade' : IsMadeOf pos (spell ps (gap ++ (text ++ c :: after)) ++ b) ps (some e) := by
    refine ⟨gap ++ (text ++ c :: after) ++ b, spell_append_text _ _ _,
      hps.append_of_ne_nil hne b, ?_⟩
    exact ⟨gap, text, c, after ++ b, by simp, hgap, hfault, hpos⟩
  exact hmade'.scanAll_eq

/-! ## Moving a text -/

/-- A token some positions further on. -/
def Token.later (k : Nat) (t : Token) : Token :=
  { t with start := t.start + k, stop := t.stop + k }

/-- A fault some positions further on. -/
def LexicalError.later (k : Nat) (e : LexicalError) : LexicalError :=
  { e with pos := e.pos + k }

theorem spelledTokens_later (pos k : Nat) (ps : List Piece) :
    spelledTokens (pos + k) ps = (spelledTokens pos ps).map (Prod.map (Token.later k) id) := by
  induction ps generalizing pos with
  | nil => rfl
  | cons p ps ih =>
      have hnext : pos + k + p.gap.length + p.text.length =
          pos + p.gap.length + p.text.length + k := by omega
      have htoken : p.token (pos + k) = (p.token pos).later k := by
        simp only [Piece.token, Token.later, Token.mk.injEq, true_and]
        omega
      simp only [spelledTokens, List.map_cons, hnext, ih, htoken, Prod.map_apply, id_eq]

theorem IsMadeOf.later {ending : Option LexicalError} (h : IsMadeOf pos a ps ending) (k : Nat) :
    IsMadeOf (pos + k) a ps (ending.map (LexicalError.later k)) := by
  obtain ⟨rest, rfl, hps, hends⟩ := h
  refine ⟨rest, rfl, hps, ?_⟩
  cases ending with
  | none => exact hends
  | some e =>
      obtain ⟨gap, text, c, after, hrest, hgap, hfault, hpos⟩ := hends
      refine ⟨gap, text, c, after, hrest, hgap, hfault, ?_⟩
      simp only [LexicalError.later]
      omega

theorem scanAll_later (pos k : Nat) (cs : List Char) :
    scanAll (pos + k) cs = ((scanAll pos cs).1.map (Prod.map (Token.later k) id),
      (scanAll pos cs).2.map (LexicalError.later k)) := by
  obtain ⟨ps, ending, hmade⟩ := exists_isMadeOf pos cs
  rw [hmade.scanAll_eq, (hmade.later k).scanAll_eq, spelledTokens_later]

/-! ## Spaces at a joint -/

/-- A token when everything from position `n` on moves `k` positions further on. -/
def Token.moved (n k : Nat) (t : Token) : Token :=
  if t.start < n then t else t.later k

/-- A fault when everything from position `n` on moves `k` positions further on. -/
def LexicalError.moved (n k : Nat) (e : LexicalError) : LexicalError :=
  if e.pos < n then e else e.later k

/-- What is found in a text that starts at a position starts from there on. -/
theorem le_of_scanAll (pos : Nat) (cs : List Char) :
    (∀ t ∈ (scanAll pos cs).1, (pos : Int) ≤ t.1.start) ∧
      ∀ e ∈ (scanAll pos cs).2, pos ≤ e.pos := by
  obtain ⟨ps, ending, hmade⟩ := exists_isMadeOf pos cs
  rw [hmade.scanAll_eq]
  refine ⟨fun t ht => le_start_of_mem_spelledTokens ht, ?_⟩
  rintro e rfl
  obtain ⟨rest, -, -, gap, text, c, after, -, -, -, hpos⟩ := hmade
  omega

/-- What is found in a text starts before the end of the text. -/
theorem lt_of_scanAll (cs : List Char) :
    (∀ t ∈ (scanAll 0 cs).1, t.1.start < cs.length) ∧
      ∀ e ∈ (scanAll 0 cs).2, e.pos < cs.length := by
  obtain ⟨ps, ending, hmade⟩ := exists_isMadeOf 0 cs
  rw [hmade.scanAll_eq]
  obtain ⟨rest, rfl, hps, hends⟩ := hmade
  rw [length_spell]
  constructor
  · intro t ht
    have hbounds := (inOrder_spelledTokens hps 0).bounds t.1 (List.mem_map_of_mem ht)
    omega
  · rintro e rfl
    obtain ⟨gap, text, c, after, rfl, -, -, hpos⟩ := hends
    simp only [List.length_append, List.length_cons]
    omega

/-- What is found in front of the joint stays. -/
theorem map_moved_front (a : List Char) (k : Nat) :
    (scanAll 0 a).1.map (Prod.map (Token.moved a.length k) id) = (scanAll 0 a).1 ∧
      (scanAll 0 a).2.map (LexicalError.moved a.length k) = (scanAll 0 a).2 := by
  obtain ⟨htokens, hfault⟩ := lt_of_scanAll a
  constructor
  · have hstay : ∀ t ∈ (scanAll 0 a).1, Prod.map (Token.moved a.length k) id t = t := by
      intro t ht
      rw [Prod.map, Token.moved, if_pos (htokens t ht), id]
    rw [List.map_congr_left hstay, List.map_id']
  · cases hscan : (scanAll 0 a).2 with
    | none => rfl
    | some e => rw [Option.map_some, LexicalError.moved, if_pos (hfault e hscan)]

/-- What is found behind the joint moves. -/
theorem map_moved_back (n k : Nat) (b : List Char) :
    (scanAll n b).1.map (Prod.map (Token.moved n k) id) =
        (scanAll n b).1.map (Prod.map (Token.later k) id) ∧
      (scanAll n b).2.map (LexicalError.moved n k) =
        (scanAll n b).2.map (LexicalError.later k) := by
  obtain ⟨htokens, hfault⟩ := le_of_scanAll n b
  constructor
  · apply List.map_congr_left
    intro t ht
    rw [Prod.map, Token.moved, if_neg (Int.not_lt.mpr (htokens t ht)), Prod.map]
  · apply Option.map_congr
    intro e he
    rw [LexicalError.moved, if_neg (Nat.not_lt.mpr (hfault e he))]

/-- Spaces at a joint over which no lexeme reaches move what stands behind them. -/
theorem scanAll_insert (hapart : Apart a b) (hgap : IsGap gap) :
    scanAll 0 (a ++ (gap ++ b)) =
      ((scanAll 0 (a ++ b)).1.map (Prod.map (Token.moved a.length gap.length) id),
        (scanAll 0 (a ++ b)).2.map (LexicalError.moved a.length gap.length)) := by
  have hapart' : Apart a (gap ++ b) := hapart.insert_gap hgap
  obtain ⟨hfront, hfront'⟩ := map_moved_front a gap.length
  cases hscan : (scanAll 0 a).2 with
  | some e =>
      -- nothing behind the joint is reached
      have hpair : scanAll 0 a = ((scanAll 0 a).1, some e) := by rw [← hscan]
      rw [hscan] at hfront'
      rw [scanAll_append_of_fault hpair, scanAll_append_of_fault hpair, hfront, hfront']
  | none =>
      have hpair : scanAll 0 a = ((scanAll 0 a).1, none) := by rw [← hscan]
      obtain ⟨hback, hback'⟩ := map_moved_back a.length gap.length b
      rw [scanAll_append hpair hapart', scanAll_append hpair hapart, Nat.zero_add,
        scanAll_gap_append hgap, scanAll_later, List.map_append, hfront, hback, hback']

end LineCalculator
