import LineCalculator.Proofs.Grammar.Readable
import LineCalculator.Proofs.Lexical.Cursor
import LineCalculator.Proofs.Number.Written

/-!
# The pieces of a written form

The written form of a tree is made of pieces: every mark, name and number in it is a lexeme, and
none of them could take in what stands behind it.  The only exception are numbers with an exponent,
the first of which spoils the text.
-/

namespace LineCalculator

open Binary64 Decimal

/-- The kind of the character of an operator. -/
def BinaryOp.kind : BinaryOp → Kind
  | add => .plus
  | sub => .minus
  | mul => .star
  | div => .slash
  | pow => .caret
  | unknown _ => .invalid

/-- The kind of a number in a written form: infinity looks like a name. -/
def numberKind (x : Float) : Kind :=
  if x.isInf then .name else .number

/-- The pieces of the written form of a tree with a gap in front. -/
def Expr.pieces (gap : List Char) : Expr → List Piece
  | number value => [⟨gap, numberKind value, numberChars value⟩]
  | constant name _ => [⟨gap, .name, name.toList⟩]
  | binary op left right =>
    ⟨gap, .lparen, ['(']⟩ :: (left.pieces [] ++
      ⟨[' '], op.kind, op.symbol.toList⟩ :: (right.pieces [' '] ++ [⟨[], .rparen, [')']⟩]))
  | unary op operand => ⟨gap, .minus, op.symbol.toList⟩ :: operand.pieces []
  | call name arg =>
    ⟨gap, .name, name.toList⟩ :: ⟨[], .lparen, ['(']⟩ :: (arg.pieces [] ++ [⟨[], .rparen, [')']⟩])
  | foreign _ => []

variable {e : Expr} {gap rest : List Char}

theorem spell_pieces (h : IsReadable e) (gap rest : List Char) :
    spell (e.pieces gap) rest = gap ++ (e.chars ++ rest) := by
  induction h generalizing gap rest with
  | number => simp [Expr.pieces, Expr.chars, spell]
  | constant => simp [Expr.pieces, Expr.chars, spell]
  | binary _ _ _ ihl ihr => simp [Expr.pieces, Expr.chars, spell, spell_append, ihl, ihr]
  | negation _ ih => simp [Expr.pieces, Expr.chars, spell, ih]
  | call _ _ ih => simp [Expr.pieces, Expr.chars, spell, spell_append, ih]

/-! ## Lexemes of a written form -/

theorem table_names_isAlpha :
    (Names.table.all fun entry => !entry.1.toList.isEmpty && entry.1.toList.all Char.isAlpha) =
      true := by
  decide +kernel

theorem isLexeme_of_lookup {name : String} {entry : Entry} (h : Names.lookup name = some entry) :
    IsLexeme .name name.toList := by
  have hname := List.all_eq_true.mp table_names_isAlpha _ (Names.mem_table_of_lookup h)
  rw [Bool.and_eq_true] at hname
  exact .name (by simpa using hname.1) (List.all_eq_true.mp hname.2)

theorem Operator.isLexeme {level : Level} {k : Kind} {op : BinaryOp} (h : Operator level k op) :
    op.kind = k ∧ IsLexeme op.kind op.symbol.toList := by
  cases h
  · exact ⟨rfl, .mark (c := '+') rfl⟩
  · exact ⟨rfl, .mark (c := '-') rfl⟩
  · exact ⟨rfl, .mark (c := '*') rfl⟩
  · exact ⟨rfl, .mark (c := '/') rfl⟩
  · exact ⟨rfl, .mark (c := '^') rfl⟩

theorem numberKind_ofCode {code : Nat} (hcode : code ≤ infinity) :
    numberKind (ofCode code) = if code = infinity then .name else .number := by
  simp only [numberKind, isInf_ofCode hcode, decide_eq_true_eq]

/-- Infinity is written as a name, and every other number that is not spoiled is a numeral. -/
theorem isLexeme_number {code : Nat} (hcode : code ≤ infinity)
    (h : ¬ HasExponent (ofCode code)) :
    IsLexeme (numberKind (ofCode code)) (numberChars (ofCode code)) := by
  rw [numberKind_ofCode hcode]
  by_cases hinf : code = infinity
  · rw [if_pos hinf, hinf, numberChars_infinity]
    exact .name (by simp) (List.all_eq_true.mp (by decide))
  · have hplain : IsPlainNumber (ofCode code) := by
      by_contra hplain
      exact h ((hasExponent_ofCode_iff hcode).mpr ⟨hplain, hinf⟩)
    rw [if_neg hinf]
    exact (numberChars_of_isPlainNumber hcode hplain).1

/-- What follows a number without being taken in is not taken in by any lexeme. -/
theorem endsBefore_of_number (h : EndsBefore .number rest) (kind : Kind) :
    EndsBefore kind rest := by
  intro c hc hcontinues
  refine h c hc ?_
  cases kind with
  | name => exact Or.inl (by simp [Char.isAlphanum, show c.isAlpha = true from hcontinues])
  | number => exact hcontinues
  | _ => cases hcontinues

theorem endsBefore_closer (kind : Kind) (rest : List Char) : EndsBefore kind (')' :: rest) := by
  refine endsBefore_of_number ?_ kind
  intro c hc hcontinues
  cases hc
  exact absurd hcontinues (by simp [Continues])

theorem endsBefore_opener (rest : List Char) : EndsBefore .name ('(' :: rest) := by
  simp [EndsBefore, Continues]

theorem isSpelling_mark {c : Char} {kind : Kind} (hmark : Kind.ofMark? c = some kind)
    (hgap : IsGap gap) {ps : List Piece} :
    IsSpelling (⟨gap, kind, [c]⟩ :: ps) rest ↔ IsSpelling ps rest := by
  constructor
  · exact fun h => h.2.2.2
  · exact fun h => ⟨hgap, .mark hmark, endsBefore_of_ofMark? hmark _, h⟩

theorem isSpelling_closed {ps : List Piece} (h : IsSpelling ps (')' :: rest)) :
    IsSpelling (ps ++ [⟨[], .rparen, [')']⟩]) rest := by
  rw [isSpelling_append, isSpelling_mark (c := ')') rfl isGap_nil]
  exact ⟨h, trivial⟩

/-- Without exponents no piece of a written form could take in more of what follows it, if this is
so for the end of the form. -/
theorem isSpelling_pieces (h : IsReadable e) (hplain : ∀ x ∈ e.numbers, ¬ HasExponent x)
    (hgap : IsGap gap) (hrest : EndsBefore .number rest) : IsSpelling (e.pieces gap) rest := by
  induction h generalizing gap rest with
  | number hcode =>
      have hlexeme := isLexeme_number hcode (hplain _ (by simp [Expr.numbers]))
      exact ⟨hgap, hlexeme, endsBefore_of_number hrest _, trivial⟩
  | constant hname =>
      exact ⟨hgap, isLexeme_of_lookup hname, endsBefore_of_number hrest _, trivial⟩
  | binary hop _ hr ihl ihr =>
      have hleft := fun cs => ihl (fun x hx => hplain x (List.mem_append_left _ hx)) isGap_nil
        (endsBefore_space .number cs)
      have hright := ihr (fun x hx => hplain x (List.mem_append_right _ hx)) isGap_space
        (endsBefore_closer .number rest)
      refine (isSpelling_mark (c := '(') rfl hgap).mpr ?_
      refine isSpelling_append.mpr ⟨hleft _, isGap_space, hop.isLexeme.2, ?_,
        isSpelling_closed hright⟩
      rw [spell_append, spell_pieces hr]
      exact endsBefore_space _ _
  | negation _ ih => exact (isSpelling_mark (c := '-') rfl hgap).mpr (ih hplain isGap_nil hrest)
  | call hname _ ih =>
      refine ⟨hgap, isLexeme_of_lookup hname, endsBefore_opener _, ?_⟩
      refine (isSpelling_mark (c := '(') rfl isGap_nil).mpr ?_
      exact isSpelling_closed (ih hplain isGap_nil (endsBefore_closer _ _))

/-! ## Spoiled texts -/

/-- A text that is not made up of pieces to its end. -/
def IsSpoiled (cs : List Char) : Prop :=
  ∀ pos, ∃ ps fault, IsMadeOf pos cs ps (some fault)

theorem IsSpoiled.spell {ps : List Piece} (h : IsSpoiled rest) (hps : IsSpelling ps rest) :
    IsSpoiled (spell ps rest) := by
  intro pos
  obtain ⟨qs, fault, last, rfl, hqs, hends⟩ := h (pos + spelledLength ps)
  refine ⟨ps ++ qs, fault, last, (spell_append ps qs last).symm,
    isSpelling_append.mpr ⟨hps, hqs⟩, ?_⟩
  rw [spelledLength_append, ← Nat.add_assoc]
  exact hends

/-- A number with an exponent spoils a text. -/
theorem isSpoiled_number {code : Nat} (hcode : code ≤ infinity) (h : HasExponent (ofCode code))
    (hgap : IsGap gap) (rest : List Char) :
    IsSpoiled (gap ++ (numberChars (ofCode code) ++ rest)) := by
  intro pos
  obtain ⟨hplain, hne⟩ := (hasExponent_ofCode_iff hcode).mp h
  obtain ⟨head, tail, htext, hfault⟩ :=
    writesExponent_numberChars (Nat.lt_of_le_of_ne hcode hne) hplain
  refine ⟨[], ⟨.strayInLiteral 'e', pos + gap.length + head.length⟩, _, rfl, trivial,
    gap, head, 'e', tail ++ rest, ?_, hgap, hfault, rfl⟩
  rw [htext, List.append_assoc, List.cons_append]

theorem IsSpoiled.lexeme {kind : Kind} {text : List Char} (h : IsSpoiled rest) (hgap : IsGap gap)
    (htext : IsLexeme kind text) (hends : EndsBefore kind rest) :
    IsSpoiled (gap ++ (text ++ rest)) := by
  have hpiece : IsSpelling [⟨gap, kind, text⟩] rest := ⟨hgap, htext, hends, trivial⟩
  exact h.spell hpiece

theorem IsSpoiled.mark {c : Char} {kind : Kind} (h : IsSpoiled rest)
    (hmark : Kind.ofMark? c = some kind) (hgap : IsGap gap) : IsSpoiled (gap ++ c :: rest) := by
  have hpiece : IsSpelling [⟨gap, kind, [c]⟩] rest := (isSpelling_mark hmark hgap).mpr trivial
  exact h.spell hpiece

/-- The first number with an exponent spoils a written form. -/
theorem isSpoiled_chars (h : IsReadable e) (hexponent : ∃ x ∈ e.numbers, HasExponent x)
    (hgap : IsGap gap) (rest : List Char) : IsSpoiled (gap ++ (e.chars ++ rest)) := by
  induction h generalizing gap rest with
  | number hcode =>
      obtain ⟨x, hx, hexponent⟩ := hexponent
      rw [List.mem_singleton.mp hx] at hexponent
      exact isSpoiled_number hcode hexponent hgap rest
  | constant =>
      obtain ⟨x, hx, -⟩ := hexponent
      cases hx
  | @binary _ _ op l r hop hl _ ihl ihr =>
      have hinner : IsSpoiled (l.chars ++ ' ' :: (op.symbol.toList ++ ' ' ::
          (r.chars ++ ')' :: rest))) := by
        by_cases hleft : ∃ x ∈ l.numbers, HasExponent x
        · exact ihl hleft isGap_nil _
        · have hright : ∃ x ∈ r.numbers, HasExponent x := by
            simp only [Expr.numbers, List.mem_append, or_and_right, exists_or] at hexponent
            exact hexponent.resolve_left hleft
          have hplain : ∀ x ∈ l.numbers, ¬ HasExponent x := fun x hx h => hleft ⟨x, hx, h⟩
          have hspoiled := ((ihr hright isGap_space (')' :: rest)).lexeme isGap_space
            hop.isLexeme.2 (endsBefore_space _ _)).spell
            (isSpelling_pieces hl hplain isGap_nil (endsBefore_space .number _))
          rw [spell_pieces hl] at hspoiled
          exact hspoiled
      have hspoiled := hinner.mark (c := '(') rfl hgap
      simpa only [Expr.chars, List.cons_append, List.append_assoc, List.nil_append] using hspoiled
  | negation _ ih => exact (ih hexponent isGap_nil rest).mark (c := '-') rfl hgap
  | call hname _ ih =>
      have hinner := (ih hexponent isGap_nil (')' :: rest)).mark (c := '(') rfl isGap_nil
      have hspoiled := hinner.lexeme hgap (isLexeme_of_lookup hname) (endsBefore_opener _)
      simpa only [Expr.chars, List.cons_append, List.append_assoc, List.nil_append] using hspoiled

end LineCalculator
