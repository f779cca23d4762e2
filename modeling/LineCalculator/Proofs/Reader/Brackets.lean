import LineCalculator.Proofs.Reader.Message
import LineCalculator.Proofs.Reader.Spacing

/-!
# Round and square brackets

The two shapes of brackets play the same part, so a source in which they change places is taken
apart like the source itself, into pieces in which they change places.  Readers treat the words of
these pieces alike.  So the same tree is read, or reading fails at the same place with a message in
which the brackets have changed places too.  What else a message quotes is without brackets: names,
numerals, and characters that are at fault.
-/

namespace LineCalculator

variable {source text rest : List Char} {c : Char} {kind : Kind} {fault : LexicalFault}
  {p : Char → Prop} {ps : List Piece} {ending : Option LexicalError}

/-! ## Exchanging characters -/

/-- The four brackets. -/
def brackets : List Char :=
  ['(', ')', '[', ']']

/-- The bracket of the other shape, or the character itself if it is no bracket. -/
def swapBracket : Char → Char
  | '(' => '['
  | ')' => ']'
  | '[' => '('
  | ']' => ')'
  | c => c

/-- No bracket has the property. -/
def ExcludesBrackets (p : Char → Prop) : Prop :=
  ∀ c ∈ brackets, ¬ p c

instance [DecidablePred p] : Decidable (ExcludesBrackets p) :=
  List.decidableBAll (fun c => ¬ p c) brackets

theorem swapBracket_mem : ∀ c ∈ brackets, swapBracket c ∈ brackets := by
  simp [brackets, swapBracket]

theorem brackets_subset_marks : brackets ⊆ marks := by
  simp [brackets, marks]

theorem swapBracket_eq_self (h : c ∉ brackets) : swapBracket c = c := by
  unfold swapBracket
  split
  case h_5 => rfl
  all_goals exact absurd (by decide) h

/-- The exchange keeps every property that no bracket has. -/
theorem swapBracket_iff (hp : ExcludesBrackets p) : p (swapBracket c) ↔ p c := by
  by_cases h : c ∈ brackets
  · exact iff_of_false (hp _ (swapBracket_mem c h)) (hp c h)
  · rw [swapBracket_eq_self h]

/-- The exchange keeps a text of characters none of which can be a bracket. -/
theorem map_swapBracket_eq_self (htext : ∀ c ∈ text, p c) (hp : ExcludesBrackets p) :
    text.map swapBracket = text := by
  induction text with
  | nil => rfl
  | cons c text ih =>
      obtain ⟨hc, htext⟩ := List.forall_mem_cons.mp htext
      have hnot : c ∉ brackets := fun h => hp c h hc
      rw [List.map_cons, swapBracket_eq_self hnot, ih htext]

/-- Kinds with the brackets exchanged. -/
def Kind.swapBracket : Kind → Kind
  | lparen => lbracket
  | rparen => rbracket
  | lbracket => lparen
  | rbracket => rparen
  | kind => kind

theorem ofMark?_swapBracket (c : Char) :
    Kind.ofMark? (swapBracket c) = (Kind.ofMark? c).map Kind.swapBracket := by
  by_cases hmark : c ∈ marks
  · simp only [marks, List.mem_cons, List.not_mem_nil, or_false] at hmark
    rcases hmark with rfl | rfl | rfl | rfl | rfl | rfl | rfl | rfl | rfl <;> rfl
  · have hnone : Kind.ofMark? c = none :=
      Option.eq_none_iff_forall_ne_some.mpr fun _ h => hmark (mem_marks_of_ofMark? h)
    have hbracket : c ∉ brackets := fun h => hmark (brackets_subset_marks h)
    rw [swapBracket_eq_self hbracket, hnone]
    rfl

theorem continues_swapBracket :
    Continues kind.swapBracket (swapBracket c) ↔ Continues kind c := by
  cases kind with
  | name => exact swapBracket_iff (p := fun c => c.isAlpha = true) (by decide)
  | number => exact swapBracket_iff (p := fun c => c.isAlphanum = true ∨ c = '.') (by decide)
  | _ => exact Iff.rfl

/-! ## Exchanging lexemes -/

/-- The piece with the brackets exchanged. -/
def Piece.swapped (p : Piece) : Piece :=
  ⟨p.gap, p.kind.swapBracket, p.text.map swapBracket⟩

theorem IsGap.map_swapBracket (h : IsGap text) : text.map swapBracket = text :=
  map_swapBracket_eq_self h (by decide)

theorem IsLexeme.swapped (h : IsLexeme kind text) :
    IsLexeme kind.swapBracket (text.map swapBracket) := by
  cases h with
  | mark hmark =>
      apply IsLexeme.mark
      rw [ofMark?_swapBracket, hmark]
      rfl
  | name hne hletters =>
      rw [map_swapBracket_eq_self hletters (by decide)]
      exact .name hne hletters
  | number hne hdigits hpoint =>
      rw [map_swapBracket_eq_self hdigits (by decide)]
      exact .number hne hdigits hpoint

theorem EndsBefore.swapped (h : EndsBefore kind rest) :
    EndsBefore kind.swapBracket (rest.map swapBracket) := by
  intro d hd
  rw [List.head?_map] at hd
  obtain ⟨c, hc, rfl⟩ := Option.map_eq_some_iff.mp hd
  exact mt continues_swapBracket.mp (h c hc)

/-- No bracket is at fault. -/
theorem IsFaultAfter.not_mem_brackets (h : IsFaultAfter text c fault) : c ∉ brackets := by
  intro hc
  cases h with
  | unexpectedCharacter _ hmark =>
      have hmarks : ExcludesBrackets fun c => Kind.ofMark? c = none := by decide
      exact hmarks c hc hmark
  | extraPoint => exact absurd hc (by decide)
  | strayInLiteral _ _ _ hletter =>
      have hletters : ExcludesBrackets fun c => c.isAlpha = true := by decide
      exact hletters c hc hletter

theorem IsFaultAfter.swapped (h : IsFaultAfter text c fault) :
    IsFaultAfter (text.map swapBracket) (swapBracket c) fault := by
  have htext : text.map swapBracket = text := by
    cases h with
    | unexpectedCharacter => rfl
    | extraPoint hdigits => exact map_swapBracket_eq_self hdigits (by decide)
    | strayInLiteral _ hdigits => exact map_swapBracket_eq_self hdigits (by decide)
  rw [htext, swapBracket_eq_self h.not_mem_brackets]
  exact h

theorem map_spell (h : IsSpelling ps rest) :
    (spell ps rest).map swapBracket = spell (ps.map Piece.swapped) (rest.map swapBracket) := by
  induction ps with
  | nil => rfl
  | cons p ps ih =>
      obtain ⟨hgap, -, -, hrest⟩ := h
      rw [spell, List.map_append, List.map_append, hgap.map_swapBracket, ih hrest]
      rfl

theorem IsSpelling.swapped (h : IsSpelling ps rest) :
    IsSpelling (ps.map Piece.swapped) (rest.map swapBracket) := by
  induction ps with
  | nil => trivial
  | cons p ps ih =>
      obtain ⟨hgap, htext, hends, hrest⟩ := h
      refine ⟨hgap, htext.swapped, ?_, ih hrest⟩
      rw [← map_spell hrest]
      exact hends.swapped

theorem spelledLength_swapped (ps : List Piece) :
    spelledLength (ps.map Piece.swapped) = spelledLength ps := by
  induction ps with
  | nil => rfl
  | cons p ps ih => simp [spelledLength, Piece.swapped, ih]

theorem EndsIn.swapped {pos : Nat} (h : EndsIn pos rest ending) :
    EndsIn pos (rest.map swapBracket) ending := by
  cases ending with
  | none =>
      have hgap : IsGap rest := h
      rw [hgap.map_swapBracket]
      exact h
  | some e =>
      obtain ⟨gap, text, c, after, rfl, hgap, hfault, hpos⟩ := h
      refine ⟨gap, text.map swapBracket, swapBracket c, after.map swapBracket, ?_, hgap,
        hfault.swapped, ?_⟩
      · rw [List.map_append, List.map_append, List.map_cons, hgap.map_swapBracket]
      · rw [hpos, List.length_map]

/-- A source with its brackets exchanged is made of the pieces with theirs exchanged. -/
theorem IsMadeOf.swapped {pos : Nat} (h : IsMadeOf pos source ps ending) :
    IsMadeOf pos (source.map swapBracket) (ps.map Piece.swapped) ending := by
  obtain ⟨rest, rfl, hspelling, hends⟩ := h
  refine ⟨rest.map swapBracket, map_spell hspelling, hspelling.swapped, ?_⟩
  rw [spelledLength_swapped]
  exact hends.swapped

/-! ## Readers treat the two shapes alike -/

/-- The word with the brackets exchanged, which names are without. -/
def Word.swapped (w : Word) : Word :=
  if w.kind = .name then w else ⟨w.kind.swapBracket, w.text.map swapBracket, w.value⟩

/-- Brackets are exchanged, and faults stay. -/
def Relabelling.swapsBrackets : Relabelling :=
  ⟨Kind.swapBracket, Word.swapped, id⟩

theorem Relabelling.isFaithful_swapsBrackets : swapsBrackets.IsFaithful where
  kind_word w := by
    change w.swapped.kind = w.kind.swapBracket
    rw [Word.swapped]
    split
    · rename_i hname
      rw [hname]
      rfl
    · rfl
  value_word w := by
    change w.swapped.value = w.value
    rw [Word.swapped, apply_ite Word.value, ite_self]
  text_word w hname := by
    change w.swapped.text = w.text
    rw [Word.swapped, if_pos hname]
  kind_eq k hk := by
    cases k with
    | lparen | rparen | lbracket | rbracket => exact absurd (by decide) hk
    | _ => rfl
  kind_inj k l h := by
    cases k <;> cases l <;> first | rfl | cases h
  closer?_kind k := by
    cases k <;> rfl
  frames_fault _ := rfl

theorem lexemeValue_swapped (h : IsLexeme kind text) :
    lexemeValue kind.swapBracket (text.map swapBracket) = lexemeValue kind text := by
  by_cases hkind : kind = .number
  · subst hkind
    rw [map_swapBracket_eq_self h.isDigit_or_of_number (by decide)]
    rfl
  · have hswapped : kind.swapBracket ≠ .number :=
      mt (Relabelling.isFaithful_swapsBrackets.kind_eq_iff (by decide)).mp hkind
    rw [lexemeValue, if_neg hswapped, lexemeValue, if_neg hkind]

theorem Piece.word_swapped {p : Piece} (h : IsLexeme p.kind p.text) :
    p.swapped.word = p.word.swapped := by
  obtain ⟨gap, kind, text⟩ := p
  by_cases hkind : kind = .name
  · subst hkind
    rw [swapped, map_swapBracket_eq_self h.isAlpha_of_name (by decide)]
    rfl
  · have hkind' : (Piece.word ⟨gap, kind, text⟩).kind ≠ .name := hkind
    rw [Word.swapped, if_neg hkind', word, swapped, lexemeValue_swapped h]
    rfl

theorem IsSpelling.words_swapped (h : IsSpelling ps rest) :
    (ps.map Piece.swapped).map Piece.word = (ps.map Piece.word).map Word.swapped := by
  induction ps with
  | nil => rfl
  | cons p ps ih =>
      obtain ⟨-, htext, -, hrest⟩ := h
      simp only [List.map_cons, Piece.word_swapped htext, ih hrest]

theorem IsMadeOf.words_swapped {pos : Nat} (h : IsMadeOf pos source ps ending) :
    (ps.map Piece.swapped).map Piece.word = (ps.map Piece.word).map Word.swapped := by
  obtain ⟨_, -, hspelling, -⟩ := h
  exact hspelling.words_swapped

/-! ## Messages -/

/-- The text is without brackets. -/
def IsPlain (s : String) : Prop :=
  Text.AllChars (fun c => c ∉ brackets) s

instance (s : String) : Decidable (IsPlain s) :=
  inferInstanceAs (Decidable (Text.AllChars (fun c => c ∉ brackets) s))

theorem IsPlain.map_eq {s : String} (h : IsPlain s) : s.map swapBracket = s := by
  rw [← String.toList_inj, String.toList_map]
  exact map_swapBracket_eq_self h fun c hc hnot => hnot hc

theorem isPlain_ofList (htext : ∀ c ∈ text, p c) (hp : ExcludesBrackets p) :
    IsPlain (String.ofList text) :=
  Text.allChars_ofList fun c hc hbracket => hp c hbracket (htext c hc)

theorem map_swapBracket_append (s t : String) :
    (s ++ t).map swapBracket = s.map swapBracket ++ t.map swapBracket := by
  rw [← String.toList_inj]
  simp

theorem IsPlain.map_append {s : String} (h : IsPlain s) (t : String) :
    (s ++ t).map swapBracket = s ++ t.map swapBracket := by
  rw [map_swapBracket_append, h.map_eq]

theorem isPlain_quotedChar (h : c ∉ brackets) : IsPlain (Text.quotedChar c) := by
  have hliterals : ExcludesBrackets fun d => d.isAlphanum = true := by decide
  have hquotes : ExcludesBrackets fun d => d ∈ Text.quotingChars := by decide
  refine Text.allChars_quotedChar ?_
  rintro d ⟨-, hmem | hliteral | hquoting⟩
  · rwa [List.mem_singleton.mp hmem]
  · exact fun hbracket => hliterals d hbracket hliteral
  · exact fun hbracket => hquotes d hbracket hquoting

theorem IsFaultAfter.isPlain_message (h : IsFaultAfter text c fault) : IsPlain fault.message := by
  have hquoted := isPlain_quotedChar h.not_mem_brackets
  cases h with
  | unexpectedCharacter =>
      have hopening : IsPlain "Unexpected character: " := by decide +kernel
      exact hopening.append hquoted
  | extraPoint =>
      have hmessage : IsPlain "Extra '.' in decimal literal" := by decide +kernel
      exact hmessage
  | strayInLiteral =>
      have hopening : IsPlain "Invalid decimal literal: unexpected " := by decide +kernel
      exact hopening.append hquoted

theorem Kind.display_swapBracket (kind : Kind) :
    kind.swapBracket.display = kind.display.map LineCalculator.swapBracket := by
  rw [← String.toList_inj, String.toList_map]
  cases kind <;> decide +kernel

theorem Word.IsLexical.describe_swapped {w : Word} (h : w.IsLexical) :
    w.swapped.describe = w.describe.map swapBracket := by
  obtain ⟨kind, text, value⟩ := w
  obtain ⟨hlexeme, -⟩ := h
  have hquote : IsPlain "'" := by decide +kernel
  dsimp only at hlexeme
  cases hlexeme with
  | @mark c kind hmark =>
      obtain ⟨-, hname, hnumber⟩ := kind_of_ofMark? hmark
      have hword : Word.swapped ⟨kind, [c], value⟩ = ⟨kind.swapBracket, [swapBracket c], value⟩ :=
        if_neg hname
      have hname' : kind.swapBracket ≠ .name :=
        mt (Relabelling.isFaithful_swapsBrackets.kind_eq_iff (by decide)).mp hname
      have hnumber' : kind.swapBracket ≠ .number :=
        mt (Relabelling.isFaithful_swapsBrackets.kind_eq_iff (by decide)).mp hnumber
      rw [hword, Word.describe_of_mark hname' hnumber', Word.describe_of_mark hname hnumber,
        hquote.map_append, map_swapBracket_append, hquote.map_eq, Kind.display_swapBracket]
  | name hne hletters =>
      have hlabel : IsPlain "name '" := by decide +kernel
      have htext := isPlain_ofList hletters (by decide)
      exact (IsPlain.map_eq ((hlabel.append htext).append hquote)).symm
  | number hne hdigits hpoint =>
      have hlabel : IsPlain "number '" := by decide +kernel
      have htext := isPlain_ofList hdigits (by decide)
      have hword : Word.swapped ⟨.number, text, value⟩ = ⟨.number, text, value⟩ :=
        congrArg (Word.mk .number · value) (map_swapBracket_eq_self hdigits (by decide))
      rw [hword]
      exact (IsPlain.map_eq ((hlabel.append htext).append hquote)).symm

theorem describe_swapped {found : Option Word} (h : ∀ w ∈ found, w.IsLexical) :
    describe (found.map Word.swapped) = (describe found).map swapBracket := by
  cases found with
  | none =>
      have hend : IsPlain "end of input" := by decide +kernel
      exact hend.map_eq.symm
  | some w =>
      have hw : w.IsLexical := h w rfl
      exact hw.describe_swapped

/-- A fault about a lexeme is told of the exchanged lexeme in exchanged words. -/
theorem GrammarFault.IsAbout.message_swapped {fault : GrammarFault} {found : Option Word}
    (h : fault.IsAbout found) (hfound : ∀ w ∈ found, w.IsLexical) :
    (Relabelling.swapsBrackets.grammarFault fault).message =
      fault.message.map swapBracket := by
  have hdescribe := describe_swapped hfound
  cases h with
  | unexpected =>
      have hopening : IsPlain "Unexpected " := by decide +kernel
      exact (congrArg _ hdescribe).trans (hopening.map_append _).symm
  | @expected kind hkind =>
      have hopening : IsPlain "Expected '" := by decide +kernel
      have hgot : IsPlain "', got " := by decide +kernel
      change "Expected '" ++ kind.swapBracket.display ++ "', got " ++
        describe (found.map Word.swapped) = ("Expected '" ++ kind.display ++ "', got " ++
          describe found).map swapBracket
      rw [map_swapBracket_append, map_swapBracket_append, hopening.map_append, hgot.map_eq,
        Kind.display_swapBracket, hdescribe]
  | @trailing w htrailing =>
      subst htrailing
      have hopening : IsPlain "Unexpected token after expression: " := by decide +kernel
      exact (congrArg _ hdescribe).trans (hopening.map_append _).symm
  | @unknownName w htrailing hkind hlookup =>
      have hlabel : IsPlain "Unknown name '" := by decide +kernel
      have hquote : IsPlain "'" := by decide +kernel
      obtain ⟨hlexeme, -⟩ := hfound w htrailing
      rw [hkind] at hlexeme
      have hname : IsPlain w.name := isPlain_ofList hlexeme.isAlpha_of_name (by decide)
      exact (IsPlain.map_eq ((hlabel.append hname).append hquote)).symm

/-! ## Reading a line -/

/-- The error with the brackets exchanged. -/
def ExprError.swapped : ExprError → ExprError
  | grammatical fault position =>
    .grammatical (Relabelling.swapsBrackets.grammarFault fault) position
  | e => e

theorem answer_swapped (v : Verdict Expr) (place : Int) :
    (Relabelling.swapsBrackets.verdict v).answer place =
      (v.answer place).mapError ExprError.swapped := by
  cases v with
  | read e => rfl
  | failed failure => cases failure <;> rfl

/-- Pieces with their brackets exchanged stand where the pieces stand. -/
theorem placeOf_swapped {pos : Nat} (ps : List Piece) :
    placeOf (source.map swapBracket) pos (ps.map Piece.swapped) = placeOf source pos ps := by
  cases ps with
  | nil => rw [List.map_nil, placeOf, placeOf, List.length_map]
  | cons p ps => rfl

theorem readLine_swapped [Limits] (source : List Char) :
    (readLine (source.map swapBracket)).result =
      (readLine source).result.mapError ExprError.swapped := by
  obtain ⟨ps, ending, hmade⟩ := exists_isMadeOf 0 source
  have hmade' := hmade.swapped
  have hending : ending.map Relabelling.swapsBrackets.fault = ending :=
    congrFun Option.map_id ending
  rw [← hending] at hmade'
  rcases Relabelling.isFaithful_swapsBrackets.readLine_eq hmade hmade' hmade.words_swapped with
    ⟨hresult, hresult'⟩ |
      ⟨before, after, before', after', v, rfl, hsplit, hlength, hresult, hresult'⟩
  · rw [hresult, hresult']
    rfl
  · rw [List.map_append] at hsplit
    obtain ⟨rfl, rfl⟩ := List.append_inj hsplit (by rw [List.length_map, hlength])
    rw [hresult, hresult', spelledLength_swapped, placeOf_swapped, answer_swapped]

theorem ExprError.IsFounded.message_swapped {e : ExprError} (h : e.IsFounded) :
    e.swapped.message = e.message.map swapBracket := by
  cases h with
  | lexical hfault => exact hfault.isPlain_message.map_eq.symm
  | grammatical position habout hfound => exact habout.message_swapped hfound
  | tooDeep =>
      have hmessage : IsPlain "Expression is nested too deeply" := by decide +kernel
      exact hmessage.map_eq.symm

/-- When round and square brackets change places in a source, valid or not, the same tree is read;
or reading fails at the same place for the same sort of reason, and brackets change places in the
message. -/
theorem readLine_swapBracket [Limits] (source : List Char) :
    (∀ t, (readLine source).result = .ok t → (readLine (source.map swapBracket)).result = .ok t) ∧
      ∀ e, (readLine source).result = .error e → ∃ e',
        (readLine (source.map swapBracket)).result = .error e' ∧
        e'.message = e.message.map swapBracket ∧ e'.position? = e.position? ∧
        (e'.IsLexical ↔ e.IsLexical) ∧ (e' = .tooDeep ↔ e = .tooDeep) := by
  rw [readLine_swapped]
  constructor
  · intro t ht
    rw [ht]
    rfl
  · intro e he
    rw [he]
    refine ⟨e.swapped, rfl, (isFounded_of_readLine he).message_swapped, ?_, ?_, ?_⟩
    · cases e <;> rfl
    · cases e <;> simp [ExprError.swapped, ExprError.IsLexical]
    · cases e <;> simp [ExprError.swapped]

/-- A call whose argument is in square brackets, and a round bracket that closes a square one. -/
theorem readLine_swapBracket_nested :
    (readLine ['l', 'b', '(', '[', '2', ']', ')']).result = .ok (.call "lb" (.number 2)) ∧
    ∃ e', (readLine ['[', '(', '1', ']']).result = .error e' ∧
      e'.message = "Expected ')', got ']'" ∧ e'.position? = some 3 := by
  have htree : (readLine ['l', 'b', '[', '(', '2', ')', ']']).result =
      .ok (.call "lb" (.number 2)) := by decide +kernel
  have herror : (readLine ['(', '[', '1', ')']).result =
      .error (.grammatical (.expected .rbracket (some ⟨.rparen, [')'], 0⟩)) 3) := by decide +kernel
  refine ⟨(readLine_swapBracket ['l', 'b', '[', '(', '2', ')', ']']).1 _ htree, ?_⟩
  obtain ⟨e', he', hmessage, hposition, -, -⟩ :=
    (readLine_swapBracket ['(', '[', '1', ')']).2 _ herror
  refine ⟨e', he', hmessage.trans ?_, hposition⟩
  rw [← String.toList_inj, String.toList_map]
  decide +kernel

end LineCalculator
