import Mathlib.Data.List.DropRight
import LineCalculator.CommandLine.Display
import LineCalculator.Proofs.Lexical.Joining

/-!
# The first fault of a source

What stands behind a fault does not matter, so a source has the fault of each of its prefixes, and
the prefixes without a fault are those that end at the fault or before it.  In front of the lexeme
at fault the tokens of the source are the tokens of a source of its own, and they are what is shown
of the source.
-/

namespace LineCalculator

variable {source front : List Char} {gap text after : List Char} {c : Char} {ps : List Piece}
  {e : LexicalError}

/-! ## What is in front of a fault -/

theorem EndsBefore.of_append {kind : Kind} {cs more : List Char}
    (h : EndsBefore kind (cs ++ more)) : EndsBefore kind cs := by
  intro c hc
  apply h c
  rw [List.head?_append, Option.mem_def.mp hc]
  rfl

/-- Pieces stay well formed when the text behind them is cut off somewhere. -/
theorem IsSpelling.of_append {rest more : List Char} (h : IsSpelling ps (rest ++ more)) :
    IsSpelling ps rest := by
  induction ps with
  | nil => trivial
  | cons p ps ih =>
      obtain ⟨hgap, htext, hends, hps⟩ := h
      rw [← spell_append_text] at hends
      exact ⟨hgap, htext, hends.of_append, ih hps⟩

/-- A source with a fault, taken apart: pieces and spaces, the lexeme at fault up to the character
that spoils it, and anything. -/
structure BreaksAt (source : List Char) (e : LexicalError) (ps : List Piece)
    (gap text : List Char) (c : Char) (after : List Char) : Prop where
  source_eq : source = spell ps gap ++ (text ++ c :: after)
  isSpelling : IsSpelling ps (gap ++ (text ++ c :: after))
  isGap : IsGap gap
  isFaultAfter : IsFaultAfter text c e.fault
  pos_eq : e.pos = spelledLength ps + gap.length + text.length

theorem exists_breaksAt (h : tokenize source = .error e) :
    ∃ ps gap text c after, BreaksAt source e ps gap text c after := by
  obtain ⟨ps, ending, hmade⟩ := exists_isMadeOf 0 source
  cases ending with
  | none => cases h.symm.trans hmade.tokenize_eq_ok
  | some e' =>
      cases h.symm.trans hmade.tokenize_eq_error
      obtain ⟨rest, hsource, hps, gap, text, c, after, rfl, hgap, hfault, hpos⟩ := hmade
      refine ⟨ps, gap, text, c, after, ?_, hps, hgap, hfault, ?_⟩
      · rw [hsource, spell_append_text]
      · rw [hpos, Nat.zero_add]

namespace BreaksAt

theorem scanAll_eq (h : BreaksAt source e ps gap text c after) :
    scanAll 0 source = (spelledTokens 0 ps, some e) := by
  have hmade : IsMadeOf 0 source ps (some e) := by
    refine ⟨_, ?_, h.isSpelling, gap, text, c, after, rfl, h.isGap, h.isFaultAfter, ?_⟩
    · rw [h.source_eq, spell_append_text]
    · rw [h.pos_eq, Nat.zero_add]
  exact hmade.scanAll_eq

/-- The fault does not need anything behind the character that it is about. -/
theorem tokenize_take_succ (h : BreaksAt source e ps gap text c after) :
    tokenize (source.take (e.pos + 1)) = .error e := by
  have hlength : e.pos + 1 = (spell ps gap ++ (text ++ [c])).length := by
    rw [h.pos_eq, List.length_append, length_spell, List.length_append, List.length_singleton]
    omega
  have htake : source.take (e.pos + 1) = spell ps (gap ++ (text ++ [c])) := by
    have hsplit : source = (spell ps gap ++ (text ++ [c])) ++ after := by
      rw [h.source_eq]
      simp
    rw [hlength, hsplit, List.take_left, spell_append_text]
  have hspelling : IsSpelling ps ((gap ++ (text ++ [c])) ++ after) := by
    have hsame : (gap ++ (text ++ [c])) ++ after = gap ++ (text ++ c :: after) := by simp
    rw [hsame]
    exact h.isSpelling
  have hmade : IsMadeOf 0 (source.take (e.pos + 1)) ps (some e) := by
    refine ⟨_, htake, hspelling.of_append, gap, text, c, [], rfl, h.isGap, h.isFaultAfter, ?_⟩
    rw [h.pos_eq, Nat.zero_add]
  exact hmade.tokenize_eq_error

/-- In front of the lexeme at fault a source has the same tokens and no fault. -/
theorem tokenize_take_start (h : BreaksAt source e ps gap text c after) :
    tokenize (source.take (spelledLength ps + gap.length)) =
      .ok ((spelledTokens 0 ps).map Prod.fst) := by
  have htake : source.take (spelledLength ps + gap.length) = spell ps gap := by
    rw [← length_spell, h.source_eq, List.take_left]
  have hmade : IsMadeOf 0 (source.take (spelledLength ps + gap.length)) ps none :=
    ⟨gap, htake, h.isSpelling.of_append, h.isGap⟩
  exact hmade.tokenize_eq_ok

end BreaksAt

/-! ## Where the lexeme at fault starts -/

/-- A character of a numeral. -/
def isNumeralChar (c : Char) : Bool :=
  c.isDigit || c = '.'

/-- Where the lexeme at fault starts: at the fault if this is a character that starts no lexeme, and
else where the digits and points in front of the fault start. -/
def LexicalError.lexemeStart (source : List Char) (e : LexicalError) : Nat :=
  match e.fault with
  | .unexpectedCharacter _ => e.pos
  | _ => ((source.take e.pos).rdropWhile isNumeralChar).length

theorem isNumeralChar_iff : isNumeralChar c = true ↔ c.isDigit = true ∨ c = '.' := by
  simp [isNumeralChar]

theorem isNumeralChar_of_mem_spaces (h : c ∈ spaces) : isNumeralChar c = false := by
  obtain ⟨-, hdigit, -, hpoint⟩ := spaces_facts c h
  simp [isNumeralChar, hdigit, hpoint]

/-- The lexemes of other kinds than numbers hold no digits and points. -/
theorem IsLexeme.isNumeralChar_eq_false {kind : Kind} (h : IsLexeme kind text)
    (hkind : kind ≠ .number) (hc : c ∈ text) : isNumeralChar c = false := by
  cases h with
  | mark hmark =>
      obtain ⟨-, hdigit, -, hpoint⟩ := marks_facts _ (mem_marks_of_ofMark? hmark)
      rw [List.mem_singleton.mp hc]
      simp [isNumeralChar, hdigit, hpoint]
  | name _ hletters =>
      have hletter := hletters c hc
      simp [isNumeralChar, isDigit_eq_false_of_isAlpha hletter, ne_point_of_isAlpha hletter]
  | number => exact absurd rfl hkind

/-- In front of a digit or a point pieces and spaces do not end in a digit or a point, since a
number would have taken it in. -/
theorem isNumeralChar_getLast_spell {d : Char} {rest : List Char} (hd : isNumeralChar d = true)
    (hps : IsSpelling ps (gap ++ d :: rest)) (hgap : IsGap gap) :
    ∀ c ∈ (spell ps gap).getLast?, isNumeralChar c = false := by
  induction ps with
  | nil =>
      intro c hc
      exact isNumeralChar_of_mem_spaces (hgap c (List.mem_of_getLast? hc))
  | cons p ps ih =>
      obtain ⟨-, htext, hends, hrest⟩ := hps
      intro c hc
      rw [spell, ← List.append_assoc] at hc
      by_cases hnil : spell ps gap = []
      · rw [← spell_append_text, hnil, List.nil_append] at hends
        have hkind : p.kind ≠ .number := by
          intro hnumber
          rw [hnumber] at hends
          refine hends d rfl ?_
          rw [Continues, ← isLiteralChar_iff]
          exact isLiteralChar_of_isDigit_or (isNumeralChar_iff.mp hd)
        rw [hnil, List.append_nil, List.getLast?_append_of_ne_nil _ htext.ne_nil] at hc
        exact htext.isNumeralChar_eq_false hkind (List.mem_of_getLast? hc)
      · rw [List.getLast?_append_of_ne_nil _ hnil] at hc
        exact ih hrest c hc

theorem rdropWhile_append_eq {p : Char → Bool} {cs : List Char} (htext : ∀ c ∈ text, p c = true)
    (hcs : ∀ c ∈ cs.getLast?, p c = false) : (cs ++ text).rdropWhile p = cs := by
  induction text using List.reverseRecOn with
  | nil =>
      rw [List.append_nil, List.rdropWhile_eq_self_iff]
      intro hne
      rw [hcs _ (List.getLast?_eq_getLast_of_ne_nil hne)]
      exact Bool.false_ne_true
  | append_singleton text d ih =>
      rw [← List.append_assoc, List.rdropWhile_concat_pos p _ d (htext d (by simp))]
      exact ih fun c hc => htext c (by simp [hc])

theorem IsFaultAfter.isNumeralChar {fault : LexicalFault} (h : IsFaultAfter text c fault) :
    ∀ d ∈ text, LineCalculator.isNumeralChar d = true := by
  intro d hd
  cases h with
  | unexpectedCharacter => cases hd
  | extraPoint hdigits => exact isNumeralChar_iff.mpr (hdigits d hd)
  | strayInLiteral _ hdigits => exact isNumeralChar_iff.mpr (hdigits d hd)

theorem BreaksAt.lexemeStart_eq (h : BreaksAt source e ps gap text c after) :
    e.lexemeStart source = spelledLength ps + gap.length := by
  have hnumeral := h.isFaultAfter.isNumeralChar
  have hpos := h.pos_eq
  have hspoiled : text ≠ [] → ((source.take e.pos).rdropWhile isNumeralChar).length =
      spelledLength ps + gap.length := by
    intro hne
    obtain ⟨d, text', rfl⟩ := List.exists_cons_of_ne_nil hne
    have hlast := isNumeralChar_getLast_spell (hnumeral d (by simp)) h.isSpelling h.isGap
    have htake : source.take e.pos = spell ps gap ++ d :: text' := by
      rw [h.source_eq, ← List.append_assoc, hpos, ← length_spell, ← List.length_append,
        List.take_left]
    rw [htake, rdropWhile_append_eq hnumeral hlast, length_spell]
  obtain ⟨fault, pos⟩ := e
  rw [LexicalError.lexemeStart]
  have hfault := h.isFaultAfter
  dsimp only at hfault hpos hspoiled ⊢
  cases hfault with
  | unexpectedCharacter => exact hpos
  | extraPoint _ hpoint =>
      refine hspoiled ?_
      rintro rfl
      simp at hpoint
  | strayInLiteral hne => exact hspoiled hne

/-! ## Prefixes of a source -/

/-- A source has the fault of each of its prefixes. -/
theorem tokenize_of_begins (hfront : front <+: source) (h : tokenize front = .error e) :
    tokenize source = .error e := by
  obtain ⟨more, rfl⟩ := hfront
  obtain ⟨ps, gap, text, c, after, hbreaks⟩ := exists_breaksAt h
  rw [tokenize, scanAll_append_of_fault hbreaks.scanAll_eq]

/-- A prefix has no fault exactly if it does not reach beyond the fault of the source. -/
theorem tokenize_take_iff (h : tokenize source = .error e) {j : Nat} (hj : j ≤ source.length) :
    (∃ ts, tokenize (source.take j) = .ok ts) ↔ j ≤ e.pos := by
  obtain ⟨ps, gap, text, c, after, hbreaks⟩ := exists_breaksAt h
  constructor
  · rintro ⟨ts, hts⟩
    by_contra hlt
    have hfront : source.take (e.pos + 1) <+: source.take j :=
      List.take_prefix_take_left (Nat.not_le.mp hlt)
    cases hts.symm.trans (tokenize_of_begins hfront hbreaks.tokenize_take_succ)
  · intro hle
    cases htake : tokenize (source.take j) with
    | ok ts => exact ⟨ts, rfl⟩
    | error e' =>
        obtain rfl := Except.error.inj
          ((tokenize_of_begins (List.take_prefix j source) htake).symm.trans h)
        have hlt := pos_lt_of_tokenize htake
        rw [List.length_take_of_le hj] at hlt
        omega

namespace CommandLine

/-- The table of some tokens of an expression. -/
def tokenPanel (expression : List Char) (ts : List Token) : Panel :=
  ⟨"Tokens", ["#", "Kind", "Text", "Value", "Span"],
    ts.zipIdx.map fun (t, index) => tokenRow expression index t⟩

theorem head?_showTokens (expression : List Char) :
    (showTokens expression).events.head? =
      some (.panel (tokenPanel expression (Lexer.ofSource expression).drain.1)) := by
  rw [showTokens]
  dsimp only
  split <;> rfl

end CommandLine

/-- A source has a fault exactly if one of its prefixes has.  The fault stands where the longest
prefix without a fault ends, and every source that begins like this one up to and with the character
at fault has the same fault.  The tokens that are found and shown before the fault are those of the
prefix in front of the lexeme at fault. -/
theorem tokenize_fails_first (source : List Char) :
    ((∃ e, tokenize source = .error e) ↔
      ∃ front e, front <+: source ∧ tokenize front = .error e) ∧
    ∀ e, tokenize source = .error e →
      e.pos < source.length ∧
      (∀ j ≤ source.length, (∃ ts, tokenize (source.take j) = .ok ts) ↔ j ≤ e.pos) ∧
      (∀ other, source.take (e.pos + 1) <+: other → tokenize other = .error e) ∧
      ∃ ts, tokenize (source.take (e.lexemeStart source)) = .ok ts ∧
        (Lexer.ofSource source).drain.1 = ts ∧
        (CommandLine.showTokens source).events.head? =
          some (.panel (CommandLine.tokenPanel source ts)) := by
  constructor
  · constructor
    · rintro ⟨e, h⟩
      exact ⟨source, e, List.prefix_refl source, h⟩
    · rintro ⟨front, e, hfront, h⟩
      exact ⟨e, tokenize_of_begins hfront h⟩
  · intro e h
    obtain ⟨ps, gap, text, c, after, hbreaks⟩ := exists_breaksAt h
    have hdrain : (Lexer.ofSource source).drain.1 = (spelledTokens 0 ps).map Prod.fst :=
      congrArg (fun scanned => scanned.1.map Prod.fst) hbreaks.scanAll_eq
    refine ⟨pos_lt_of_tokenize h, fun j hj => tokenize_take_iff h hj, ?_,
      (spelledTokens 0 ps).map Prod.fst, ?_, hdrain, ?_⟩
    · intro other hother
      exact tokenize_of_begins hother hbreaks.tokenize_take_succ
    · rw [hbreaks.lexemeStart_eq]
      exact hbreaks.tokenize_take_start
    · rw [CommandLine.head?_showTokens, hdrain]

/-- The second point of a literal that follows a name at once. -/
theorem tokenize_fails_first_point :
    tokenize ['l', 'b', '1', '.', '5', '.', '2', '$'] = .error ⟨.extraPoint, 5⟩ ∧
    (∃ ts, tokenize ['l', 'b', '1', '.', '5'] = .ok ts) ∧
    tokenize ['l', 'b', '1', '.', '5', '.', 'x'] = .error ⟨.extraPoint, 5⟩ ∧
    ∃ ts, tokenize ['l', 'b'] = .ok ts ∧
      (Lexer.ofSource ['l', 'b', '1', '.', '5', '.', '2', '$']).drain.1 = ts := by
  have h : tokenize ['l', 'b', '1', '.', '5', '.', '2', '$'] = .error ⟨.extraPoint, 5⟩ := by
    decide +kernel
  obtain ⟨-, hfirst⟩ := tokenize_fails_first ['l', 'b', '1', '.', '5', '.', '2', '$']
  obtain ⟨-, hprefixes, hothers, ts, hfront, hdrain, -⟩ := hfirst _ h
  refine ⟨h, (hprefixes 5 (by decide)).mpr (Nat.le_refl 5), hothers _ (by decide), ts, ?_, hdrain⟩
  have hstart : LexicalError.lexemeStart ['l', 'b', '1', '.', '5', '.', '2', '$']
      ⟨.extraPoint, 5⟩ = 2 := by
    decide
  rwa [hstart] at hfront

end LineCalculator
