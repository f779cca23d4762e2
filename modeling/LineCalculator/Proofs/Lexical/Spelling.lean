import Mathlib.Data.List.Basic
import LineCalculator.Proofs.Lexical.Scan

/-!
# Sources taken apart into lexemes

A source is taken apart into pieces, each a lexeme with the spaces in front of it, and the spaces
behind the last of them.  The tokens of a source are the lexemes of its pieces, which makes the
pieces unique.  Where the source cannot be taken apart the pieces still describe its front, up to
the first fault, so most lemmas speak of pieces in front of any text.
-/

namespace LineCalculator

/-- A lexeme of a kind with the spaces in front of it. -/
structure Piece where
  gap : List Char
  kind : Kind
  text : List Char

/-- The token of a piece that starts, with its spaces, at a position. -/
def Piece.token (pos : Nat) (p : Piece) : Token :=
  ⟨p.kind, lexemeValue p.kind p.text, (pos + p.gap.length : Nat),
    (pos + p.gap.length + p.text.length : Nat)⟩

/-- What the grammar sees of a piece. -/
def Piece.word (p : Piece) : Word :=
  ⟨p.kind, p.text, lexemeValue p.kind p.text⟩

/-- Pieces written out in front of a text. -/
def spell : List Piece → List Char → List Char
  | [], rest => rest
  | p :: ps, rest => p.gap ++ (p.text ++ spell ps rest)

/-- The number of characters of some pieces. -/
def spelledLength : List Piece → Nat
  | [] => 0
  | p :: ps => p.gap.length + p.text.length + spelledLength ps

/-- The tokens of pieces that start at a position, each with its characters. -/
def spelledTokens : Nat → List Piece → List (Token × List Char)
  | _, [] => []
  | pos, p :: ps =>
    (p.token pos, p.text) :: spelledTokens (pos + p.gap.length + p.text.length) ps

/-- Pieces that are well formed in front of a text: none of them could take in more of what follows
it. -/
def IsSpelling : List Piece → List Char → Prop
  | [], _ => True
  | p :: ps, rest =>
    IsGap p.gap ∧ IsLexeme p.kind p.text ∧ EndsBefore p.kind (spell ps rest) ∧ IsSpelling ps rest

theorem length_spell (ps : List Piece) (rest : List Char) :
    (spell ps rest).length = spelledLength ps + rest.length := by
  induction ps with
  | nil => simp [spell, spelledLength]
  | cons p ps ih =>
      simp only [spell, spelledLength, List.length_append, ih]
      omega

theorem spell_append (ps qs : List Piece) (rest : List Char) :
    spell (ps ++ qs) rest = spell ps (spell qs rest) := by
  induction ps with
  | nil => rfl
  | cons p ps ih => simp [spell, ih]

theorem spelledLength_append (ps qs : List Piece) :
    spelledLength (ps ++ qs) = spelledLength ps + spelledLength qs := by
  induction ps with
  | nil => simp [spelledLength]
  | cons p ps ih => simp [spelledLength, ih, Nat.add_assoc]

theorem spelledTokens_append (pos : Nat) (ps qs : List Piece) :
    spelledTokens pos (ps ++ qs) =
      spelledTokens pos ps ++ spelledTokens (pos + spelledLength ps) qs := by
  induction ps generalizing pos with
  | nil => simp [spelledTokens, spelledLength]
  | cons p ps ih => simp [spelledTokens, spelledLength, ih, Nat.add_assoc]

theorem length_spelledTokens (pos : Nat) (ps : List Piece) :
    (spelledTokens pos ps).length = ps.length := by
  induction ps generalizing pos with
  | nil => rfl
  | cons p ps ih => simp [spelledTokens, ih]

theorem isSpelling_append {ps qs : List Piece} {rest : List Char} :
    IsSpelling (ps ++ qs) rest ↔ IsSpelling ps (spell qs rest) ∧ IsSpelling qs rest := by
  induction ps with
  | nil => simp [IsSpelling]
  | cons p ps ih => simp [IsSpelling, ih, spell_append, and_assoc]

/-! ## What the scanner makes of a spelling -/

theorem scan_piece {p : Piece} {rest : List Char} (hgap : IsGap p.gap)
    (htext : IsLexeme p.kind p.text) (hends : EndsBefore p.kind rest) (pos : Nat) :
    scan pos (p.gap ++ (p.text ++ rest)) =
      .token (p.token pos) p.text (pos + p.gap.length + p.text.length) rest := by
  rw [scan_gap_append hgap, scan_lexeme htext hends]
  rfl

theorem scanAll_of_token {pos pos' : Nat} {cs text rest : List Char} {t : Token}
    (h : scan pos cs = .token t text pos' rest) :
    scanAll pos cs = ((t, text) :: (scanAll pos' rest).1, (scanAll pos' rest).2) := by
  rw [scanAll.eq_def]
  split
  next heq =>
    cases heq.symm.trans h
    rfl
  all_goals
    rename_i heq
    cases heq.symm.trans h

theorem scanAll_of_finished {pos pos' : Nat} {cs : List Char}
    (h : scan pos cs = .finished pos') : scanAll pos cs = ([], none) := by
  rw [scanAll.eq_def]
  split
  next heq => cases heq.symm.trans h
  · rfl
  next heq => cases heq.symm.trans h

theorem scanAll_of_failed {pos pos' : Nat} {cs rest : List Char} {e : LexicalError}
    (h : scan pos cs = .failed e pos' rest) : scanAll pos cs = ([], some e) := by
  rw [scanAll.eq_def]
  split
  next heq => cases heq.symm.trans h
  next heq => cases heq.symm.trans h
  next heq =>
    cases heq.symm.trans h
    rfl

theorem scanAll_of_isGap {gap : List Char} (hgap : IsGap gap) (pos : Nat) :
    scanAll pos gap = ([], none) := by
  have hscan : scan pos gap = .finished (pos + gap.length) := by
    simpa [scan] using scan_gap_append hgap pos []
  exact scanAll_of_finished hscan

theorem scanAll_of_fault {gap text rest : List Char} {c : Char} {fault : LexicalFault}
    (hgap : IsGap gap) (hfault : IsFaultAfter text c fault) (pos : Nat) :
    scanAll pos (gap ++ (text ++ c :: rest)) =
      ([], some ⟨fault, pos + gap.length + text.length⟩) := by
  have hscan := scan_gap_append hgap pos (text ++ c :: rest)
  by_cases hne : text = []
  · subst hne
    cases hfault with
    | unexpectedCharacter h₁ h₂ h₃ h₄ =>
        exact scanAll_of_failed
          (hscan.trans (scan_unexpectedCharacter (.unexpectedCharacter h₁ h₂ h₃ h₄) _ _))
    | extraPoint _ hpoint => simp at hpoint
    | strayInLiteral hne => exact absurd rfl hne
  · exact scanAll_of_failed (hscan.trans (scan_spoiledLiteral hfault hne _ _))

/-- Pieces in front of a text give their tokens, and scanning goes on behind them. -/
theorem scanAll_spell {ps : List Piece} {rest : List Char} (h : IsSpelling ps rest) (pos : Nat) :
    scanAll pos (spell ps rest) =
      (spelledTokens pos ps ++ (scanAll (pos + spelledLength ps) rest).1,
        (scanAll (pos + spelledLength ps) rest).2) := by
  induction ps generalizing pos with
  | nil => simp [spell, spelledTokens, spelledLength]
  | cons p ps ih =>
      obtain ⟨hgap, htext, hends, hrest⟩ := h
      rw [spell, scanAll_of_token (scan_piece hgap htext hends pos), ih hrest]
      simp [spelledTokens, spelledLength, Nat.add_assoc]

/-- Every text is taken apart up to its end or its first fault. -/
theorem exists_spelling (cs : List Char) :
    ∃ ps rest, IsSpelling ps rest ∧ cs = spell ps rest ∧
      (IsGap rest ∨ ∃ gap text c after fault, rest = gap ++ (text ++ c :: after) ∧ IsGap gap ∧
        IsFaultAfter text c fault) := by
  induction hn : cs.length using Nat.strong_induction_on generalizing cs with
  | _ n ih =>
      subst hn
      rcases scan_trichotomy cs with ⟨gap, kind, text, rest, rfl, hgap, htext, hends⟩ | hgap |
        hfault
      · have hpos : 0 < text.length := List.length_pos_iff.mpr htext.ne_nil
        obtain ⟨ps, last, hps, rfl, hlast⟩ := ih rest.length (by simp; omega) rest rfl
        exact ⟨⟨gap, kind, text⟩ :: ps, last, ⟨hgap, htext, hends, hps⟩, rfl, hlast⟩
      · exact ⟨[], cs, trivial, rfl, Or.inl hgap⟩
      · exact ⟨[], cs, trivial, rfl, Or.inr hfault⟩

/-! ## Pieces are unique -/

theorem not_isGap_spell_cons {p : Piece} {ps : List Piece} {rest : List Char}
    (h : IsSpelling (p :: ps) rest) : ¬ IsGap (spell (p :: ps) rest) := by
  intro hgap
  obtain ⟨c, hc⟩ := List.exists_mem_of_ne_nil p.text h.2.1.ne_nil
  have hspace : c ∈ spaces := hgap c (by simp [spell, hc])
  simpa [isSpace_iff.mpr hspace] using h.2.1.isSpace_eq_false hc

/-- What stands first in a spelled text is its first piece, whatever follows. -/
theorem spell_cons_inj {p q : Piece} {ps qs : List Piece} {rest rest' : List Char}
    (hp : IsSpelling (p :: ps) rest) (hq : IsSpelling (q :: qs) rest')
    (h : spell (p :: ps) rest = spell (q :: qs) rest') :
    p = q ∧ spell ps rest = spell qs rest' := by
  obtain ⟨hpgap, hptext, hpends, -⟩ := hp
  obtain ⟨hqgap, hqtext, hqends, -⟩ := hq
  have hscan := (scan_piece hpgap hptext hpends 0).symm.trans
    ((congrArg (scan 0) h).trans (scan_piece hqgap hqtext hqends 0))
  obtain ⟨htoken, htext, -, hrest⟩ := Scan.token.inj hscan
  have hkind : p.kind = q.kind := congrArg Token.kind htoken
  have hlength : p.gap.length = q.gap.length := by
    have hstart := congrArg Token.start htoken
    simp only [Piece.token] at hstart
    omega
  have hgap : p.gap = q.gap := (List.append_inj h hlength).1
  refine ⟨?_, hrest⟩
  cases p
  cases q
  simp_all

theorem spell_inj {ps qs : List Piece} {last last' : List Char} (hps : IsSpelling ps last)
    (hqs : IsSpelling qs last') (hlast : IsGap last) (hlast' : IsGap last')
    (h : spell ps last = spell qs last') : ps = qs ∧ last = last' := by
  induction ps generalizing qs with
  | nil =>
      cases qs with
      | nil => exact ⟨rfl, h⟩
      | cons q qs =>
          rw [spell] at h
          exact absurd (h ▸ hlast) (not_isGap_spell_cons hqs)
  | cons p ps ih =>
      cases qs with
      | nil => exact absurd (h ▸ hlast') (not_isGap_spell_cons hps)
      | cons q qs =>
          obtain ⟨rfl, hrest⟩ := spell_cons_inj hps hqs h
          obtain ⟨rfl, hlast⟩ := ih hps.2.2.2 hqs.2.2.2 hrest
          exact ⟨rfl, hlast⟩

/-! ## The tokens of a source -/

/-- A source without faults, taken apart. -/
structure Spelling where
  pieces : List Piece
  last : List Char

namespace Spelling

/-- The tokens of the pieces. -/
def tokens (d : Spelling) : List Token :=
  (spelledTokens 0 d.pieces).map Prod.fst

/-- The pieces and the last spaces are well formed and make up the source. -/
structure IsOf (d : Spelling) (source : List Char) : Prop where
  spell_eq : spell d.pieces d.last = source
  isSpelling : IsSpelling d.pieces d.last
  isGap : IsGap d.last

theorem IsOf.scanAll_eq {d : Spelling} {source : List Char} (h : d.IsOf source) :
    scanAll 0 source = (spelledTokens 0 d.pieces, none) := by
  rw [← h.spell_eq, scanAll_spell h.isSpelling, scanAll_of_isGap h.isGap]
  simp

theorem IsOf.tokenize_eq {d : Spelling} {source : List Char} (h : d.IsOf source) :
    tokenize source = .ok d.tokens := by
  simp [tokenize, h.scanAll_eq, tokens]

theorem exists_isOf_of_tokenize {source : List Char} {ts : List Token}
    (h : tokenize source = .ok ts) : ∃ d : Spelling, d.IsOf source ∧ d.tokens = ts := by
  obtain ⟨ps, rest, hps, rfl, hgap | ⟨gap, text, c, after, fault, rfl, hgap, hfault⟩⟩ :=
    exists_spelling source
  · have hd : (⟨ps, rest⟩ : Spelling).IsOf (spell ps rest) := ⟨rfl, hps, hgap⟩
    exact ⟨⟨ps, rest⟩, hd, Except.ok.inj (hd.tokenize_eq.symm.trans h)⟩
  · rw [tokenize, scanAll_spell hps, scanAll_of_fault hgap hfault] at h
    simp at h

theorem IsOf.unique {d d' : Spelling} {source : List Char} (h : d.IsOf source)
    (h' : d'.IsOf source) : d = d' := by
  obtain ⟨hpieces, hlast⟩ := spell_inj h.isSpelling h'.isSpelling h.isGap h'.isGap
    (h.spell_eq.trans h'.spell_eq.symm)
  cases d
  cases d'
  simp_all

end Spelling

/-! ## Where tokens lie -/

/-- A token covers a position. -/
def Token.Covers (t : Token) (i : Nat) : Prop :=
  t.start ≤ i ∧ i < t.stop

theorem le_start_of_mem_spelledTokens {pos : Nat} {ps : List Piece} {t : Token × List Char}
    (h : t ∈ spelledTokens pos ps) : (pos : Int) ≤ t.1.start := by
  induction ps generalizing pos with
  | nil => simp [spelledTokens] at h
  | cons p ps ih =>
      rcases List.mem_cons.mp h with rfl | h
      · simp only [Piece.token]
        omega
      · have hstart := ih h
        omega

/-- Tokens stand in order, without overlap, and none is empty or reaches beyond the text. -/
structure InOrder (length : Nat) (ts : List Token) : Prop where
  disjoint : ts.Pairwise fun t u => t.stop ≤ u.start
  bounds : ∀ t ∈ ts, 0 ≤ t.start ∧ t.start < t.stop ∧ t.stop ≤ length

theorem inOrder_spelledTokens {ps : List Piece} {rest : List Char} (h : IsSpelling ps rest)
    (pos : Nat) :
    InOrder (pos + spelledLength ps) ((spelledTokens pos ps).map Prod.fst) := by
  induction ps generalizing pos with
  | nil => exact ⟨by simp [spelledTokens], by simp [spelledTokens]⟩
  | cons p ps ih =>
      have htext : 0 < p.text.length := List.length_pos_iff.mpr h.2.1.ne_nil
      have hrest := ih h.2.2.2 (pos + p.gap.length + p.text.length)
      constructor
      · simp only [spelledTokens, List.map_cons, List.pairwise_cons]
        refine ⟨?_, hrest.disjoint⟩
        intro t ht
        obtain ⟨u, hu, rfl⟩ := List.mem_map.mp ht
        exact le_start_of_mem_spelledTokens hu
      · intro t ht
        simp only [spelledTokens, List.map_cons, List.mem_cons] at ht
        rcases ht with rfl | ht
        · simp only [Piece.token, spelledLength]
          omega
        · have hbounds := hrest.bounds t ht
          simp only [spelledLength]
          omega

theorem exists_covers_cons_iff (pos : Nat) (p : Piece) (ps : List Piece) (i : Nat) :
    (∃ t ∈ spelledTokens pos (p :: ps), t.1.Covers (pos + i)) ↔
      (p.gap.length ≤ i ∧ i < p.gap.length + p.text.length) ∨
        (p.gap.length + p.text.length ≤ i ∧
          ∃ t ∈ spelledTokens (pos + p.gap.length + p.text.length) ps, t.1.Covers (pos + i)) := by
  simp only [spelledTokens, List.mem_cons, exists_eq_or_imp]
  refine or_congr ?_ (iff_and_self.mpr ?_)
  · simp only [Token.Covers, Piece.token]
    omega
  · rintro ⟨t, ht, hstart, -⟩
    have hle := le_start_of_mem_spelledTokens ht
    omega

/-- The characters that no token covers are the spaces between the tokens. -/
theorem exists_covers_iff {ps : List Piece} {last : List Char} (h : IsSpelling ps last)
    (hlast : IsGap last) (pos : Nat) {i : Nat} {c : Char}
    (hi : (spell ps last)[i]? = some c) :
    (∃ t ∈ spelledTokens pos ps, t.1.Covers (pos + i)) ↔ c ∉ spaces := by
  induction ps generalizing pos i with
  | nil =>
      have hspace : c ∈ spaces := hlast c (List.mem_of_getElem? hi)
      simp [spelledTokens, hspace]
  | cons p ps ih =>
      obtain ⟨hgap, htext, -, hrest⟩ := h
      rw [exists_covers_cons_iff]
      rcases Nat.lt_or_ge i p.gap.length with hi₁ | hi₁
      · have hspace : c ∈ spaces := by
          rw [spell, List.getElem?_append_left hi₁] at hi
          exact hgap c (List.mem_of_getElem? hi)
        have hbehind : ¬ p.gap.length + p.text.length ≤ i := by omega
        simp [hspace, Nat.not_le.mpr hi₁, hbehind]
      · rw [spell, List.getElem?_append_right hi₁] at hi
        rcases Nat.lt_or_ge (i - p.gap.length) p.text.length with hi₂ | hi₂
        · have hspace : c ∉ spaces := by
            rw [List.getElem?_append_left hi₂] at hi
            rw [← isSpace_iff, Bool.not_eq_true]
            exact htext.isSpace_eq_false (List.mem_of_getElem? hi)
          have hinside : p.gap.length ≤ i ∧ i < p.gap.length + p.text.length := by omega
          simp [hspace, hinside]
        · rw [List.getElem?_append_right hi₂] at hi
          have houtside : ¬ (p.gap.length ≤ i ∧ i < p.gap.length + p.text.length) := by omega
          have hbehind : p.gap.length + p.text.length ≤ i := by omega
          have hpos : pos + p.gap.length + p.text.length + (i - p.gap.length - p.text.length) =
              pos + i := by omega
          rw [← ih hrest (pos + p.gap.length + p.text.length) hi, hpos]
          simp only [houtside, hbehind, false_or, true_and]

/-! ## Tokenizing -/

/-- Tokenizing accepts exactly the sources that can be taken apart, and answers the tokens of their
pieces.  There is only one way to take a source apart.  So the tokens stand in order, none is empty,
no two overlap, and they cover everything but spaces. -/
theorem tokenize_eq_ok_iff_existsUnique (source : List Char) (ts : List Token) :
    (tokenize source = .ok ts ↔ ∃! d : Spelling, d.IsOf source ∧ d.tokens = ts) ∧
      (tokenize source = .ok ts → InOrder source.length ts ∧
        ∀ i c, source[i]? = some c → ((∃ t ∈ ts, t.Covers i) ↔ c ∉ spaces)) := by
  constructor
  · constructor
    · intro h
      obtain ⟨d, hd, hts⟩ := Spelling.exists_isOf_of_tokenize h
      exact ⟨d, ⟨hd, hts⟩, fun d' hd' => hd'.1.unique hd⟩
    · rintro ⟨d, ⟨hd, rfl⟩, -⟩
      exact hd.tokenize_eq
  · intro h
    obtain ⟨d, hd, rfl⟩ := Spelling.exists_isOf_of_tokenize h
    obtain ⟨hspell, hpieces, hgap⟩ := hd
    have horder := inOrder_spelledTokens hpieces 0
    have hlength : spelledLength d.pieces ≤ source.length := by
      rw [← hspell, length_spell]
      omega
    refine ⟨⟨horder.disjoint, fun t ht => ?_⟩, fun i c hi => ?_⟩
    · have hbounds := horder.bounds t ht
      omega
    · have hcovers := exists_covers_iff hpieces hgap 0 (hspell ▸ hi)
      simpa [Spelling.tokens] using hcovers

/-- Letters followed at once by a numeral, a lone point, and spaces of every sort. -/
theorem tokenize_eq_ok_iff_existsUnique_mixed :
    tokenize ['a', 'b', '1', '\t', '.', '\x0b'] =
        .ok [⟨.name, 0, 0, 2⟩, ⟨.number, 1, 2, 3⟩, ⟨.number, 0, 4, 5⟩] ∧
      InOrder 6 [⟨.name, 0, 0, 2⟩, ⟨.number, 1, 2, 3⟩, ⟨.number, 0, 4, 5⟩] :=
  have h : tokenize ['a', 'b', '1', '\t', '.', '\x0b'] =
      .ok [⟨.name, 0, 0, 2⟩, ⟨.number, 1, 2, 3⟩, ⟨.number, 0, 4, 5⟩] := by decide +kernel
  ⟨h, ((tokenize_eq_ok_iff_existsUnique _ _).2 h).1⟩

end LineCalculator
