import LineCalculator.Proofs.Lexical.WrittenForm
import LineCalculator.Proofs.Reader.Line

/-!
# Reading what was written

The written form of a tree that was read is read as the same tree if all its numbers are written
plainly.  The words of the pieces of the form derive the tree, because the brackets of an operation
make an operand of it in every place.  A number with an exponent spoils the form, and infinity is
written as a name that stands for nothing.
-/

namespace LineCalculator

open Binary64 Decimal

variable {e : Expr}

/-! ## The words of a written form -/

/-- The words of the written form of a tree. -/
def Expr.words (gap : List Char) (e : Expr) : List Word :=
  (e.pieces gap).map Piece.word

/-- The word of a number that is written plainly has its value. -/
theorem phrase_number {code : Nat} (hcode : code ≤ infinity) (hplain : IsPlainNumber (ofCode code))
    (gap : List Char) (next : Option Kind) :
    Phrase .term (Expr.words gap (.number (ofCode code))) next (.number (ofCode code)) := by
  have hkind : numberKind (ofCode code) = .number := by
    rw [numberKind_ofCode hcode, if_neg (ne_infinity_of_isPlainNumber hcode hplain)]
  have hvalue : lexemeValue .number (numberChars (ofCode code)) = ofCode code := by
    rw [lexemeValue, if_pos rfl]
    exact (numberChars_of_isPlainNumber hcode hplain).2
  have hphrase : Phrase .term [⟨.number, numberChars (ofCode code), ofCode code⟩] next
      (.number (ofCode code)) := .number rfl
  simpa only [Expr.words, Expr.pieces, List.map_cons, List.map_nil, Piece.word, hkind, hvalue] using
    hphrase

theorem Piece.name_word (gap : List Char) (name : String) :
    (Piece.word ⟨gap, .name, name.toList⟩).name = name :=
  String.ofList_toList

theorem phrase_constant {name : String} {value : Float} {description : String}
    (hname : Names.lookup name = some (.constant value description)) (gap : List Char)
    (next : Option Kind) :
    Phrase .term (Expr.words gap (.constant name value)) next (.constant name value) := by
  have hword := Piece.name_word gap name
  have hconstant : (Piece.word ⟨gap, .name, name.toList⟩).NamesConstant value :=
    ⟨rfl, description, hword.symm ▸ hname⟩
  have hphrase : Phrase .term _ next _ := .constant hconstant
  rw [hword] at hphrase
  exact hphrase

theorem phrase_call {name : String} {fn : Function} {description : String} {arg : Expr}
    (hname : Names.lookup name = some (.function fn description))
    (harg : Phrase .unary (arg.words []) (some .rparen) arg) (gap : List Char)
    (next : Option Kind) :
    Phrase .term (Expr.words gap (.call name arg)) next (.call name arg) := by
  have hword := Piece.name_word gap name
  have hfunction : (Piece.word ⟨gap, .name, name.toList⟩).NamesFunction :=
    ⟨rfl, fn, description, hword.symm ▸ hname⟩
  have hphrase : Phrase .term _ next _ :=
    .groupCall (l := Piece.word ⟨[], .lparen, ['(']⟩) (r := Piece.word ⟨[], .rparen, [')']⟩)
      hfunction .round harg.to_sum
  rw [hword] at hphrase
  simpa only [Expr.words, Expr.pieces, List.map_cons, List.map_append, List.map_nil] using hphrase

/-- The words of a written form without other numbers than plain ones are an operand. -/
theorem phrase_words (h : IsReadable e) (hplain : ∀ x ∈ e.numbers, IsPlainNumber x)
    (gap : List Char) (next : Option Kind) : Phrase .unary (e.words gap) next e := by
  induction h generalizing gap next with
  | number hcode =>
      exact .lift .term (phrase_number hcode (hplain _ (by simp [Expr.numbers])) gap next)
  | constant hname => exact .lift .term (phrase_constant hname gap next)
  | @binary _ _ op l r hop _ _ ihl ihr =>
      have hop' : Operator _ (Piece.word ⟨[' '], op.kind, op.symbol.toList⟩).kind op :=
        hop.isLexeme.1.symm ▸ hop
      have hl := ihl (fun x hx => hplain x (List.mem_append_left _ hx)) [] (some op.kind)
      have hr := ihr (fun x hx => hplain x (List.mem_append_right _ hx)) [' '] (some .rparen)
      have hgroup : Phrase .term _ next _ :=
        .group (l := Piece.word ⟨gap, .lparen, ['(']⟩) (r := Piece.word ⟨[], .rparen, [')']⟩) .round
          (Phrase.binary_of_unary hop' hl hr)
      have hunary : Phrase .unary _ next _ := .lift .term hgroup
      simpa only [Expr.words, Expr.pieces, List.map_cons, List.map_append, List.map_nil,
        List.append_assoc, List.cons_append] using hunary
  | negation _ ih => exact .negation rfl (ih hplain [] next)
  | call hname _ ih => exact .lift .term (phrase_call hname (ih hplain [] _) gap next)

/-! ## Infinity -/

theorem exists_piece_of_number {x : Float} (hx : x ∈ e.numbers) (gap : List Char) :
    ∃ gap', ⟨gap', numberKind x, numberChars x⟩ ∈ e.pieces gap := by
  induction e generalizing gap with
  | number value =>
      rw [List.mem_singleton.mp hx]
      exact ⟨gap, by simp [Expr.pieces]⟩
  | constant => cases hx
  | binary op l r ihl ihr =>
      rcases List.mem_append.mp hx with hx | hx
      · obtain ⟨gap', hmem⟩ := ihl hx []
        exact ⟨gap', by simp [Expr.pieces, hmem]⟩
      · obtain ⟨gap', hmem⟩ := ihr hx [' ']
        exact ⟨gap', by simp [Expr.pieces, hmem]⟩
  | unary op operand ih =>
      obtain ⟨gap', hmem⟩ := ih hx []
      exact ⟨gap', by simp [Expr.pieces, hmem]⟩
  | call name arg ih =>
      obtain ⟨gap', hmem⟩ := ih hx []
      exact ⟨gap', by simp [Expr.pieces, hmem]⟩
  | foreign => cases hx

theorem lookup_infinity : Names.lookup (String.ofList ['i', 'n', 'f']) = none := by
  decide +kernel

/-- The word of infinity stands for nothing, so no phrase holds it. -/
theorem not_phrase_words (h : IsReadable e) (hinf : ∃ x ∈ e.numbers, x.isInf = true)
    (gap : List Char) {level : Level} {next : Option Kind} {t : Expr} :
    ¬ Phrase level (e.words gap) next t := by
  intro hphrase
  obtain ⟨x, hx, hinf⟩ := hinf
  obtain ⟨code, hcode, rfl⟩ := h.exists_code hx
  obtain ⟨gap', hmem⟩ := exists_piece_of_number hx gap
  rw [isInf_ofCode hcode, decide_eq_true_eq] at hinf
  rw [numberKind_ofCode hcode, if_pos hinf, hinf, numberChars_infinity] at hmem
  exact hphrase.lookup_ne_none _ (List.mem_map_of_mem hmem) rfl lookup_infinity

/-! ## Reading again -/

/-- A tree that was read holds only what lexemes can stand for. -/
theorem isReadable_of_readLine [Limits] {source : List Char} {t : Expr}
    (h : (readLine source).result = .ok t) : IsReadable t := by
  obtain ⟨ts, htokens, hderives⟩ := derives_of_readLine h
  obtain ⟨ps, ending, hmade⟩ := exists_isMadeOf 0 source
  cases ending with
  | some e => cases htokens.symm.trans hmade.tokenize_eq_error
  | none =>
      cases htokens.symm.trans hmade.tokenize_eq_ok
      rw [hmade.words_of_tokens] at hderives
      exact Phrase.isReadable hderives hmade.isLexical

/-- Without exponents the tokens of a written form have the words of its pieces. -/
theorem tokenize_chars (h : IsReadable e) (hplain : ∀ x ∈ e.numbers, ¬ HasExponent x) :
    ∃ ts, tokenize e.chars = .ok ts ∧ ts.map (Token.word e.chars) = e.words [] := by
  have hspelling : IsSpelling (e.pieces []) [] :=
    isSpelling_pieces h hplain isGap_nil (by simp [EndsBefore])
  have hchars : spell (e.pieces []) [] = e.chars := by simp [spell_pieces h]
  have hmade : IsMadeOf 0 e.chars (e.pieces []) none := ⟨[], hchars.symm, hspelling, isGap_nil⟩
  exact ⟨_, hmade.tokenize_eq_ok, hmade.words_of_tokens⟩

/-- With an exponent the written form has no tokens. -/
theorem exists_tokenize_chars_error (h : IsReadable e)
    (hexponent : ∃ x ∈ e.numbers, HasExponent x) : ∃ fault, tokenize e.chars = .error fault := by
  obtain ⟨ps, fault, hmade⟩ := isSpoiled_chars h hexponent isGap_nil [] 0
  rw [List.nil_append, List.append_nil] at hmade
  exact ⟨fault, hmade.tokenize_eq_error⟩

theorem isPlainNumber_iff {x : Float} (h : IsReadable e) (hx : x ∈ e.numbers) :
    IsPlainNumber x ↔ ¬ (x.isInf = true ∨ HasExponent x) := by
  obtain ⟨code, hcode, rfl⟩ := h.exists_code hx
  rw [isInf_ofCode hcode, decide_eq_true_eq, hasExponent_ofCode_iff hcode]
  constructor
  · rintro hplain (hinf | ⟨hnot, -⟩)
    · exact ne_infinity_of_isPlainNumber hcode hplain hinf
    · exact hnot hplain
  · intro hneither
    by_contra hnot
    by_cases hinf : code = infinity
    · exact hneither (Or.inl hinf)
    · exact hneither (Or.inr ⟨hnot, hinf⟩)

/-- An error in the text of a line. -/
def ExprError.IsParseError (e : ExprError) : Prop :=
  (∃ fault, e = .lexical fault) ∨ ∃ fault position, e = .grammatical fault position

theorem isParseError_of_readLine [Limits] {source : List Char} {error : ExprError}
    (h : (readLine source).result = .error error) (hdeep : error ≠ .tooDeep) :
    error.IsParseError := by
  obtain ⟨ts, -, -, hfails⟩ := exists_fails_of_readLine h hdeep
  rcases hfails with ⟨u, fault, -, rfl, -⟩ | ⟨-, ⟨fault, rfl⟩, -⟩ | ⟨-, fault, -, rfl⟩
  · exact Or.inr ⟨fault, _, rfl⟩
  · exact Or.inr ⟨fault, _, rfl⟩
  · exact Or.inl ⟨fault, rfl⟩

theorem readLine_chars [Limits] (h : IsReadable e) (hplain : ∀ x ∈ e.numbers, IsPlainNumber x)
    (hdeep : (readLine e.chars).result ≠ .error .tooDeep) :
    (readLine e.chars).result = .ok e := by
  obtain ⟨ts, htokens, hwords⟩ := tokenize_chars h fun x hx hexponent =>
    (isPlainNumber_iff h hx).mp (hplain x hx) (Or.inr hexponent)
  refine readLine_of_derives htokens ?_ hdeep
  rw [hwords]
  exact (phrase_words h hplain [] none).to_sum

theorem readLine_chars_ne_ok [Limits] (h : IsReadable e)
    (hnumber : ∃ x ∈ e.numbers, x.isInf = true ∨ HasExponent x) (t : Expr) :
    (readLine e.chars).result ≠ .ok t := by
  intro hresult
  obtain ⟨ts, htokens, hderives⟩ := derives_of_readLine hresult
  by_cases hexponent : ∃ x ∈ e.numbers, HasExponent x
  · obtain ⟨fault, hfault⟩ := exists_tokenize_chars_error h hexponent
    cases htokens.symm.trans hfault
  · have hplain : ∀ x ∈ e.numbers, ¬ HasExponent x := fun x hx hexp => hexponent ⟨x, hx, hexp⟩
    have hinf : ∃ x ∈ e.numbers, x.isInf = true := by
      obtain ⟨x, hx, hx'⟩ := hnumber
      exact ⟨x, hx, hx'.resolve_right (hplain x hx)⟩
    obtain ⟨ts', htokens', hwords⟩ := tokenize_chars h hplain
    cases htokens.symm.trans htokens'
    rw [hwords] at hderives
    exact not_phrase_words h hinf [] hderives

/-- A tree that was read is read again from its written form, unless that is too deep, if every
number in it is written plainly.  If a number in it is infinite or written with an exponent, its
written form is refused.  There are no other numbers. -/
theorem readLine_text [Limits] {source : List Char} {t : Expr} {text : String}
    (h : (readLine source).result = .ok t) (htext : t.text? = some text)
    (hdeep : (readLine text.toList).result ≠ .error .tooDeep) :
    ((∀ x ∈ t.numbers, IsPlainNumber x) → (readLine text.toList).result = .ok t) ∧
      ((∃ x ∈ t.numbers, x.isInf = true ∨ HasExponent x) →
        ∃ error, (readLine text.toList).result = .error error ∧ error.IsParseError) ∧
      ∀ x ∈ t.numbers, (IsPlainNumber x ↔ ¬ (x.isInf = true ∨ HasExponent x)) := by
  have hreadable := isReadable_of_readLine h
  have hchars : text.toList = t.chars := by
    rw [Expr.text?] at htext
    split at htext
    · rw [← Option.some.inj htext, String.toList_ofList]
    · cases htext
  rw [hchars] at hdeep ⊢
  refine ⟨fun hplain => readLine_chars hreadable hplain hdeep, ?_,
    fun x hx => isPlainNumber_iff hreadable hx⟩
  intro hnumber
  cases hresult : (readLine t.chars).result with
  | ok t' => exact absurd hresult (readLine_chars_ne_ok hreadable hnumber t')
  | error error =>
      refine ⟨error, rfl, isParseError_of_readLine hresult ?_⟩
      rintro rfl
      exact hdeep hresult

/-- A negated operand stands in a power without brackets of its own, and `10 ^ 16` is written with
an exponent. -/
theorem readLine_text_negation :
    (readLine "lb((-0.5 ^ 2.0))".toList).result =
        .ok (.call "lb" (.binary .pow (.unary .neg (.number 0.5)) (.number 2))) ∧
      ∃ error, (readLine "1e+16".toList).result = .error error ∧ error.IsParseError := by
  constructor
  · have hread : (readLine ['l', 'b', '-', '.', '5', '^', '2']).result =
        .ok (.call "lb" (.binary .pow (.unary .neg (.number 0.5)) (.number 2))) := by
      decide +kernel
    refine (readLine_text hread (by decide +kernel) (by decide +kernel)).1 ?_
    simp only [Expr.numbers, List.nil_append, List.cons_append, List.forall_mem_cons, IsPlainNumber]
    decide +kernel
  · have hread : (readLine ('1' :: List.replicate 16 '0')).result =
        .ok (.number 10000000000000000) := by
      decide +kernel
    refine (readLine_text hread (by decide +kernel) (by decide +kernel)).2.1 ?_
    refine ⟨_, List.mem_singleton_self _, Or.inr ?_⟩
    unfold HasExponent
    decide +kernel

end LineCalculator
