import LineCalculator.Proofs.Calculation.WellFormed
import LineCalculator.Proofs.Lexical.Joining
import LineCalculator.Proofs.Lexical.WrittenForm
import LineCalculator.Proofs.Reader.Line

/-!
# Sources put together

Sources that are read as trees can be put together to larger ones, which are read as the trees put
together.  The lexemes of the parts stay apart at brackets and operators, and the words of a part
are a phrase wherever no caret follows.  Only the depth of the whole can be too much.
-/

namespace LineCalculator

variable {a b : List Char} {ws ws' : List Word} {s t : Expr}

/-- The source is read as the tree, unless it is too deep. -/
def IsReadAs [Limits] (source : List Char) (t : Expr) : Prop :=
  (readLine source).result ≠ .error .tooDeep → (readLine source).result = .ok t

/-- An opening bracket and the one that closes it, as they are typed. -/
inductive BracketChars : Char → Char → Prop
  | round : BracketChars '(' ')'
  | square : BracketChars '[' ']'

/-- A source with a bracket on either side. -/
def bracketed (l r : Char) (source : List Char) : List Char :=
  l :: (source ++ [r])

/-! ## Words of a source -/

/-- The source has no fault and the words. -/
def Lexes (source : List Char) (ws : List Word) : Prop :=
  ∃ ts, scanAll 0 source = (ts, none) ∧
    ts.map (fun t => (⟨t.1.kind, t.2, t.1.value⟩ : Word)) = ws

theorem lexes_iff_tokenize :
    Lexes a ws ↔ ∃ ts, tokenize a = .ok ts ∧ ts.map (Token.word a) = ws := by
  obtain ⟨ps, ending, hmade⟩ := exists_isMadeOf 0 a
  cases ending with
  | none => simp [Lexes, hmade.scanAll_eq, hmade.tokenize_eq_ok, words_of_texts,
      ← hmade.words_of_tokens]
  | some e => simp [Lexes, hmade.scanAll_eq, hmade.tokenize_eq_error]

theorem lexes_nil : Lexes [] [] :=
  ⟨[], scanAll_of_isGap isGap_nil 0, rfl⟩

theorem lexes_lexeme {kind : Kind} {text : List Char} (h : IsLexeme kind text) :
    Lexes text [⟨kind, text, lexemeValue kind text⟩] := by
  have hends : EndsBefore kind [] := by simp [EndsBefore]
  have hmade : IsMadeOf 0 text [⟨[], kind, text⟩] none :=
    ⟨[], by simp [spell], ⟨isGap_nil, h, hends, trivial⟩, isGap_nil⟩
  exact ⟨_, hmade.scanAll_eq, words_of_texts 0 _⟩

theorem Lexes.append (ha : Lexes a ws) (hb : Lexes b ws') (hapart : Apart a b) :
    Lexes (a ++ b) (ws ++ ws') := by
  obtain ⟨ts, hscan, rfl⟩ := ha
  obtain ⟨us, hscan', rfl⟩ := hb
  have hboth : scanAll 0 (a ++ b) =
      (ts ++ us.map (Prod.map (Token.later a.length) id), none) := by
    rw [scanAll_append hscan hapart, scanAll_later, hscan']
    rfl
  refine ⟨_, hboth, ?_⟩
  rw [List.map_append, List.map_map]
  rfl

/-- An operator or a bracket stands apart from what is on either side of it. -/
theorem Lexes.mark {c : Char} {kind : Kind} (hmark : Kind.ofMark? c = some kind) (ha : Lexes a ws)
    (hb : Lexes b ws') : ∃ w : Word, w.kind = kind ∧ Lexes (a ++ c :: b) (ws ++ w :: ws') := by
  obtain ⟨-, hdigit, hletter, hpoint⟩ := marks_facts c (mem_marks_of_ofMark? hmark)
  have hc : isLiteralChar c = false := by
    simp [isLiteralChar, Char.isAlphanum, hdigit, hletter, hpoint]
  have hbehind : Lexes ([c] ++ b) ([_] ++ ws') :=
    (lexes_lexeme (.mark hmark)).append hb (apart_of_last hc [] b)
  exact ⟨_, rfl, ha.append hbehind (apart_of_head hc a b)⟩

theorem BracketChars.exists_lexes {l r : Char} (h : BracketChars l r) (ha : Lexes a ws) :
    ∃ wl wr : Word, Brackets wl.kind wr.kind ∧ Lexes (bracketed l r a) (wl :: (ws ++ [wr])) := by
  obtain ⟨kl, kr, hl, hr, hbrackets⟩ : ∃ kl kr, Kind.ofMark? l = some kl ∧
      Kind.ofMark? r = some kr ∧ Brackets kl kr := by
    cases h with
    | round => exact ⟨_, _, rfl, rfl, .round⟩
    | square => exact ⟨_, _, rfl, rfl, .square⟩
  obtain ⟨wr, hwr, hclosed⟩ := ha.mark hr lexes_nil
  obtain ⟨wl, hwl, hopened⟩ := lexes_nil.mark hl hclosed
  refine ⟨wl, wr, ?_, hopened⟩
  rw [hwl, hwr]
  exact hbrackets

/-! ## Sources as phrases -/

/-- The words of the source are a phrase of a level for the tree when a word of kind `next`
follows. -/
def IsPhrase (level : Level) (source : List Char) (next : Option Kind) (t : Expr) : Prop :=
  ∃ ws, Lexes source ws ∧ Phrase level ws next t

variable {level tighter : Level} {next : Option Kind} {l r : Char}

theorem isPhrase_of_readLine [Limits] (h : (readLine a).result = .ok t) :
    IsPhrase .sum a none t := by
  obtain ⟨ts, htokens, hderives⟩ := derives_of_readLine h
  exact ⟨_, lexes_iff_tokenize.mpr ⟨ts, htokens, rfl⟩, hderives⟩

theorem IsPhrase.isReadAs [Limits] (h : IsPhrase level a none t) : IsReadAs a t := by
  obtain ⟨ws, hlexes, hphrase⟩ := h
  obtain ⟨ts, htokens, rfl⟩ := lexes_iff_tokenize.mp hlexes
  exact readLine_of_derives htokens hphrase.to_sum

theorem IsPhrase.stop (h : IsPhrase level a none t) (hnext : next ≠ some .caret) :
    IsPhrase level a next t := by
  obtain ⟨ws, hlexes, hphrase⟩ := h
  exact ⟨ws, hlexes, hphrase.stop hnext⟩

theorem IsPhrase.bracketed (h : IsPhrase .sum a none t) (hbrackets : BracketChars l r) :
    IsPhrase .unary (bracketed l r a) next t := by
  obtain ⟨ws, hlexes, hphrase⟩ := h
  obtain ⟨wl, wr, hkinds, hlexes'⟩ := hbrackets.exists_lexes hlexes
  exact ⟨_, hlexes', .lift .term (.group hkinds (hphrase.stop hkinds.right_ne_caret))⟩

theorem IsPhrase.negation (h : IsPhrase .unary a next t) :
    IsPhrase .unary ('-' :: a) next (.unary .neg t) := by
  obtain ⟨ws, hlexes, hphrase⟩ := h
  obtain ⟨w, hw, hlexes'⟩ := lexes_nil.mark (c := '-') rfl hlexes
  exact ⟨_, hlexes', .negation hw hphrase⟩

theorem IsPhrase.call (h : IsPhrase .sum a none t) (hbrackets : BracketChars l r) {f : String}
    {fn : Function} {description : String} (hf : Names.lookup f = some (.function fn description)) :
    IsPhrase .term (f.toList ++ LineCalculator.bracketed l r a) next (.call f t) := by
  obtain ⟨ws, hlexes, hphrase⟩ := h
  obtain ⟨wl, wr, hkinds, hlexes'⟩ := hbrackets.exists_lexes hlexes
  have hl : isLiteralChar l = false := by
    cases hbrackets <;> decide
  have hnames : Word.NamesFunction ⟨.name, f.toList, lexemeValue .name f.toList⟩ :=
    ⟨rfl, fn, description, by rw [Word.name, String.ofList_toList]; exact hf⟩
  have hcall : Phrase .term _ next (.call (String.ofList f.toList) t) :=
    .groupCall hnames hkinds (hphrase.stop hkinds.right_ne_caret)
  rw [String.ofList_toList] at hcall
  exact ⟨_, (lexes_lexeme (isLexeme_of_lookup hf)).append hlexes' (apart_of_head hl _ _), hcall⟩

/-- An operator is typed as one character. -/
theorem Operator.exists_mark {kind : Kind} {op : BinaryOp} (h : Operator level kind op) :
    ∃ c, op.symbol.toList = [c] ∧ Kind.ofMark? c = some kind := by
  cases h with
  | plus => exact ⟨'+', rfl, rfl⟩
  | minus => exact ⟨'-', rfl, rfl⟩
  | star => exact ⟨'*', rfl, rfl⟩
  | slash => exact ⟨'/', rfl, rfl⟩
  | caret => exact ⟨'^', rfl, rfl⟩

theorem IsPhrase.binary {kind : Kind} {op : BinaryOp} (hop : Operator level kind op)
    (htighter : tighter.Tighter level) (ha : IsPhrase level a (some kind) s)
    (hb : IsPhrase tighter b next t) :
    IsPhrase level (a ++ op.symbol.toList ++ b) next (.binary op s t) := by
  obtain ⟨ws, hlexes, hphrase⟩ := ha
  obtain ⟨ws', hlexes', hphrase'⟩ := hb
  obtain ⟨c, hsymbol, hmark⟩ := hop.exists_mark
  obtain ⟨w, rfl, hboth⟩ := hlexes.mark hmark hlexes'
  rw [hsymbol, List.append_assoc, List.singleton_append]
  exact ⟨_, hboth, .binary hop htighter hphrase hphrase'⟩

theorem IsPhrase.of_unary (h : IsPhrase .unary a next t) (hlevel : level ≠ .term) :
    IsPhrase level a next t := by
  obtain ⟨ws, hlexes, hphrase⟩ := h
  exact ⟨ws, hlexes, hphrase.of_unary hlevel⟩

theorem exists_operator_of_mem_known {op : BinaryOp} (h : op ∈ BinaryOp.known) :
    ∃ kind level, Operator level kind op := by
  simp only [BinaryOp.known, List.mem_cons, List.not_mem_nil, or_false] at h
  rcases h with rfl | rfl | rfl | rfl | rfl
  · exact ⟨_, _, .plus⟩
  · exact ⟨_, _, .minus⟩
  · exact ⟨_, _, .star⟩
  · exact ⟨_, _, .slash⟩
  · exact ⟨_, _, .caret⟩

/-- A plus or a minus sign is an operator of sums, and no caret. -/
theorem exists_operator_sum {op : BinaryOp} (h : op ∈ [BinaryOp.add, BinaryOp.sub]) :
    ∃ kind, Operator .sum kind op ∧ kind ≠ .caret := by
  simp only [List.mem_cons, List.not_mem_nil, or_false] at h
  rcases h with rfl | rfl
  · exact ⟨_, .plus, by decide⟩
  · exact ⟨_, .minus, by decide⟩

/-! ## Reading what is put together -/

/-- Sources that are read can be put in brackets of either sort, and what is in brackets can be
negated, handed to a function, and put on either side of an operator.  In front of a plus or a minus
sign the brackets are not needed. -/
theorem readLine_composed [Limits] (ha : (readLine a).result = .ok s)
    (hb : (readLine b).result = .ok t)
    {l r l' r' : Char} (h : BracketChars l r) (h' : BracketChars l' r') :
    (∀ op ∈ BinaryOp.known,
      IsReadAs (bracketed l r a ++ op.symbol.toList ++ bracketed l' r' b) (.binary op s t)) ∧
    IsReadAs ('-' :: bracketed l r a) (.unary .neg s) ∧
    (∀ f fn description, Names.lookup f = some (.function fn description) →
      IsReadAs (f.toList ++ bracketed l r a) (.call f s)) ∧
    IsReadAs (bracketed l r a) s ∧
    ∀ op ∈ [BinaryOp.add, BinaryOp.sub],
      IsReadAs (a ++ op.symbol.toList ++ bracketed l' r' b) (.binary op s t) := by
  have hs := isPhrase_of_readLine ha
  have ht := isPhrase_of_readLine hb
  refine ⟨?_, ?_, ?_, ?_, ?_⟩
  · intro op hop
    obtain ⟨kind, level, hoperator⟩ := exists_operator_of_mem_known hop
    obtain ⟨tighter, htighter, hne⟩ := hoperator.exists_tighter
    apply IsPhrase.isReadAs
    exact .binary hoperator htighter ((hs.bracketed h).of_unary hoperator.ne_term)
      ((ht.bracketed h').of_unary hne)
  · exact (hs.bracketed h).negation.isReadAs
  · intro f fn description hf
    exact (hs.call h hf).isReadAs
  · exact IsPhrase.isReadAs (hs.bracketed h)
  · intro op hop
    obtain ⟨kind, hoperator, hcaret⟩ := exists_operator_sum hop
    have hleft : IsPhrase .sum a (some kind) s := hs.stop fun h => hcaret (Option.some.inj h)
    apply IsPhrase.isReadAs
    exact .binary hoperator .product hleft ((ht.bracketed h').of_unary (by decide))

/-- A call with a bare argument on the left of a minus sign takes in nothing of what is put behind
it. -/
theorem readLine_composed_bareArgument :
    (readLine ['l', 'b', ' ', '2', '^', '3']).result =
        .ok (.call "lb" (.binary .pow (.number 2) (.number 3))) ∧
      (readLine ['1']).result = .ok (.number 1) ∧ BracketChars '[' ']' ∧
      (readLine ['l', 'b', ' ', '2', '^', '3', '-', '[', '1', ']']).result =
        .ok (.binary .sub (.call "lb" (.binary .pow (.number 2) (.number 3))) (.number 1)) := by
  have hleft : (readLine ['l', 'b', ' ', '2', '^', '3']).result =
      .ok (.call "lb" (.binary .pow (.number 2) (.number 3))) := by decide +kernel
  have hright : (readLine ['1']).result = .ok (.number 1) := by decide +kernel
  obtain ⟨-, -, -, -, hsum⟩ := readLine_composed hleft hright .round .square
  exact ⟨hleft, hright, .square, hsum .sub (by decide) (by decide +kernel)⟩

end LineCalculator
