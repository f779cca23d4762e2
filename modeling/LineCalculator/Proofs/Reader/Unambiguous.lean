import LineCalculator.Proofs.Number.Distinct
import LineCalculator.Proofs.Reader.Rereading

/-!
# Written forms are unambiguous

Numbers and names are the only parts of a written form that are not delimited by themselves.  They
have no space and no bracket in them, and what stands behind an operand starts with one, so it shows
where a number or name ends.  The first character and the one behind the first number or name tell
what kind of tree is written.  By induction the tree in front of a text is determined by the text,
and so is what is left of it.
-/

namespace LineCalculator

open Binary64

variable {e e' : Expr} {text text' rest rest' : List Char}

/-! ## Where numbers and names end -/

/-- The characters that no number and no name has in it. -/
def isDelimiter (c : Char) : Bool :=
  c = ' ' || c = '(' || c = ')'

/-- A text without delimiters that does not look like a negated operand. -/
structure IsAtomText (text : List Char) : Prop where
  exists_cons : ∃ c cs, text = c :: cs ∧ c ≠ '-'
  chars : ∀ c ∈ text, isDelimiter c = false

/-- A text that is empty or starts with a delimiter. -/
def IsDelimited (rest : List Char) : Prop :=
  ∀ c ∈ rest.head?, isDelimiter c = true

/-- What can stand behind an operand: nothing, a space or a closing bracket. -/
def EndsOperand (rest : List Char) : Prop :=
  ∀ c ∈ rest.head?, c = ' ' ∨ c = ')'

theorem EndsOperand.isDelimited (h : EndsOperand rest) : IsDelimited rest := by
  intro c hc
  rcases h c hc with rfl | rfl
  · rfl
  · rfl

theorem endsOperand_space (rest : List Char) : EndsOperand (' ' :: rest) := by
  intro c hc
  exact Or.inl (Option.some.inj hc).symm

theorem endsOperand_closer (rest : List Char) : EndsOperand (')' :: rest) := by
  intro c hc
  exact Or.inr (Option.some.inj hc).symm

theorem isDelimited_opener (rest : List Char) : IsDelimited ('(' :: rest) := by
  intro c hc
  cases hc
  rfl

/-- The delimiter behind a number or name shows where it ends. -/
theorem takeWhile_of_chars (h : ∀ c ∈ text, isDelimiter c = false) (hrest : IsDelimited rest) :
    (text ++ rest).takeWhile (fun c => !isDelimiter c) = text ∧
      (text ++ rest).dropWhile (fun c => !isDelimiter c) = rest := by
  refine takeWhile_append_eq ?_ ?_
  · intro c hc
    rw [h c hc]
    rfl
  · intro c hc
    rw [hrest c hc]
    rfl

theorem append_inj_of_chars (h : ∀ c ∈ text, isDelimiter c = false)
    (h' : ∀ c ∈ text', isDelimiter c = false) (hrest : IsDelimited rest)
    (hrest' : IsDelimited rest') (heq : text ++ rest = text' ++ rest') :
    text = text' ∧ rest = rest' := by
  obtain ⟨htake, hdrop⟩ := takeWhile_of_chars h hrest
  obtain ⟨htake', hdrop'⟩ := takeWhile_of_chars h' hrest'
  rw [heq] at htake hdrop
  exact ⟨htake.symm.trans htake', hdrop.symm.trans hdrop'⟩

theorem isDelimiter_eq_false {c : Char} (h : c.isAlphanum = true ∨ c ∈ ['.', 'e', '+', '-']) :
    isDelimiter c = false := by
  rw [← Bool.not_eq_true]
  intro hdelimiter
  simp only [isDelimiter, Bool.or_eq_true, decide_eq_true_eq, or_assoc] at hdelimiter
  rcases hdelimiter with rfl | rfl | rfl
  · exact absurd h (by decide)
  · exact absurd h (by decide)
  · exact absurd h (by decide)

theorem isAtomText_name {name : String} {entry : Entry} (h : Names.lookup name = some entry) :
    IsAtomText name.toList := by
  have hletters := (isLexeme_of_lookup h).isAlpha_of_name
  obtain ⟨c, cs, hcons⟩ := List.exists_cons_of_ne_nil (isLexeme_of_lookup h).ne_nil
  refine ⟨⟨c, cs, hcons, ?_⟩, fun d hd => isDelimiter_eq_false (Or.inl ?_)⟩
  · rintro rfl
    exact absurd (hletters '-' (by simp [hcons])) (by decide)
  · simp [Char.isAlphanum, hletters d hd]

theorem IsNumberText.isAtomText (h : IsNumberText text) : IsAtomText text := by
  obtain ⟨⟨c, cs, rfl, hc⟩, hchars⟩ := h
  refine ⟨⟨c, cs, rfl, ?_⟩, fun d hd => isDelimiter_eq_false ?_⟩
  · rintro rfl
    exact absurd hc (by decide)
  · exact (hchars d hd).imp_left fun hdigit => by simp [Char.isAlphanum, hdigit]

theorem isAtomText_number {code : Nat} (hcode : code ≤ infinity) :
    IsAtomText (numberChars (ofCode code)) := by
  rcases Nat.lt_or_eq_of_le hcode with hlt | rfl
  · exact (isNumberText_numberChars hlt).isAtomText
  · have hletters : ['i', 'n', 'f'].all Char.isAlphanum = true := by decide
    rw [numberChars_infinity]
    refine ⟨⟨'i', _, rfl, by decide⟩, fun c hc => isDelimiter_eq_false (Or.inl ?_)⟩
    exact List.all_eq_true.mp hletters c hc

/-- No number is written as a name that stands for something. -/
theorem numberChars_ne_name {code : Nat} (hcode : code ≤ infinity) {name : String} {entry : Entry}
    (h : Names.lookup name = some entry) : numberChars (ofCode code) ≠ name.toList := by
  intro heq
  rcases Nat.lt_or_eq_of_le hcode with hlt | rfl
  · obtain ⟨c, cs, hcons, hc⟩ := (isNumberText_numberChars hlt).exists_cons
    have hletter := (isLexeme_of_lookup h).isAlpha_of_name c (by simp [← heq, hcons])
    rcases hc with hdigit | rfl
    · rw [isDigit_eq_false_of_isAlpha hletter] at hdigit
      cases hdigit
    · exact ne_point_of_isAlpha hletter rfl
  · rw [numberChars_infinity] at heq
    have hname := congrArg String.ofList heq
    rw [String.ofList_toList] at hname
    rw [← hname, lookup_infinity] at h
    cases h

/-! ## What kind of tree is written -/

/-- The kinds of trees that differ in how their written forms start. -/
inductive Shape where
  | atom
  | group
  | negation
  | call
  deriving DecidableEq

/-- The kind of a tree. -/
def Expr.shape : Expr → Shape
  | number _ => .atom
  | constant _ _ => .atom
  | binary _ _ _ => .group
  | unary _ _ => .negation
  | call _ _ => .call
  | foreign _ => .atom

/-- The kind of the tree in front of a text, as its start shows it. -/
def shapeOf : List Char → Shape
  | '(' :: _ => .group
  | '-' :: _ => .negation
  | text => if (text.dropWhile fun c => !isDelimiter c).head? = some '(' then .call else .atom

theorem IsAtomText.shapeOf_append (h : IsAtomText text) (hrest : IsDelimited rest) :
    shapeOf (text ++ rest) = if rest.head? = some '(' then .call else .atom := by
  obtain ⟨-, hdrop⟩ := takeWhile_of_chars h.chars hrest
  obtain ⟨⟨c, cs, rfl, hminus⟩, hchars⟩ := h
  have hopener : c ≠ '(' := by
    rintro rfl
    exact absurd (hchars '(' List.mem_cons_self) (by decide)
  rw [List.cons_append] at hdrop ⊢
  rw [shapeOf, hdrop]
  · exact fun cs' heq => hopener (List.cons.inj heq).1
  · exact fun cs' heq => hminus (List.cons.inj heq).1

theorem EndsOperand.shapeOf_append (hrest : EndsOperand rest) (h : IsAtomText text) :
    shapeOf (text ++ rest) = .atom := by
  rw [h.shapeOf_append hrest.isDelimited, if_neg]
  intro hopener
  exact absurd (hrest '(' hopener) (by decide)

theorem IsReadable.shapeOf_append (h : IsReadable e) (hrest : EndsOperand rest) :
    shapeOf (e.chars ++ rest) = e.shape := by
  cases h with
  | number hcode => exact hrest.shapeOf_append (isAtomText_number hcode)
  | constant hname => exact hrest.shapeOf_append (isAtomText_name hname)
  | binary => rfl
  | negation => rfl
  | call hname =>
      rw [Expr.chars, List.append_assoc, List.cons_append]
      exact ((isAtomText_name hname).shapeOf_append (isDelimited_opener _)).trans (if_pos rfl)

theorem IsReadable.shape_eq (h : IsReadable e) (h' : IsReadable e') (hrest : EndsOperand rest)
    (hrest' : EndsOperand rest') (heq : e.chars ++ rest = e'.chars ++ rest') :
    e'.shape = e.shape := by
  rw [← h'.shapeOf_append hrest', ← heq, h.shapeOf_append hrest]

theorem IsReadable.of_shape_atom (h : IsReadable e) (hshape : e.shape = .atom) :
    (∃ code ≤ infinity, e = .number (ofCode code)) ∨
      ∃ name value description, e = .constant name value ∧
        Names.lookup name = some (.constant value description) := by
  cases h with
  | number hcode => exact Or.inl ⟨_, hcode, rfl⟩
  | constant hname => exact Or.inr ⟨_, _, _, rfl, hname⟩
  | binary => cases hshape
  | negation => cases hshape
  | call => cases hshape

theorem IsReadable.of_shape_group (h : IsReadable e) (hshape : e.shape = .group) :
    ∃ level kind op l r, e = .binary op l r ∧ Operator level kind op ∧ IsReadable l ∧
      IsReadable r := by
  cases h with
  | binary hop hl hr => exact ⟨_, _, _, _, _, rfl, hop, hl, hr⟩
  | number => cases hshape
  | constant => cases hshape
  | negation => cases hshape
  | call => cases hshape

theorem IsReadable.of_shape_negation (h : IsReadable e) (hshape : e.shape = .negation) :
    ∃ operand, e = .unary .neg operand ∧ IsReadable operand := by
  cases h with
  | negation he => exact ⟨_, rfl, he⟩
  | number => cases hshape
  | constant => cases hshape
  | binary => cases hshape
  | call => cases hshape

theorem IsReadable.of_shape_call (h : IsReadable e) (hshape : e.shape = .call) :
    ∃ name fn description arg, e = .call name arg ∧
      Names.lookup name = some (.function fn description) ∧ IsReadable arg := by
  cases h with
  | call hname he => exact ⟨_, _, _, _, rfl, hname, he⟩
  | number => cases hshape
  | constant => cases hshape
  | binary => cases hshape
  | negation => cases hshape

/-! ## Equal texts are of equal trees -/

theorem Operator.symbol_inj {level level' : Level} {kind kind' : Kind} {op op' : BinaryOp}
    (h : Operator level kind op) (h' : Operator level' kind' op')
    (heq : op.symbol = op'.symbol) : op = op' := by
  cases h <;> cases h' <;> first | rfl | exact absurd heq (by decide)

theorem Operator.symbol_chars {level : Level} {kind : Kind} {op : BinaryOp}
    (h : Operator level kind op) : ∀ c ∈ op.symbol.toList, isDelimiter c = false := by
  have hall : (op.symbol.toList.all fun c => !isDelimiter c) = true := by cases h <;> decide
  intro c hc
  simpa using List.all_eq_true.mp hall c hc

theorem IsReadable.isAtomText (h : IsReadable e) (hshape : e.shape = .atom) :
    IsAtomText e.chars := by
  rcases h.of_shape_atom hshape with ⟨code, hcode, rfl⟩ | ⟨name, value, description, rfl, hname⟩
  · exact isAtomText_number hcode
  · exact isAtomText_name hname

/-- Numbers and constants with equal texts are equal. -/
theorem IsReadable.atom_inj (h : IsReadable e) (h' : IsReadable e') (hshape : e.shape = .atom)
    (hshape' : e'.shape = .atom) (heq : e.chars = e'.chars) : e = e' := by
  rcases h.of_shape_atom hshape with ⟨code, hcode, rfl⟩ | ⟨name, value, description, rfl, hname⟩
  · rcases h'.of_shape_atom hshape' with ⟨code', hcode', rfl⟩ | ⟨name', value', _, rfl, hname'⟩
    · rw [numberChars_inj hcode hcode' heq]
    · exact absurd heq (numberChars_ne_name hcode hname')
  · rcases h'.of_shape_atom hshape' with ⟨code', hcode', rfl⟩ | ⟨name', value', _, rfl, hname'⟩
    · exact absurd heq.symm (numberChars_ne_name hcode' hname)
    · obtain rfl : name = name' := String.toList_inj.mp heq
      cases hname.symm.trans hname'
      rfl

/-- Wherever an operand can stand, a text that starts with the written form of the tree starts with
that of no other tree, and leaves the same behind it. -/
def Expr.IsDetermined (e : Expr) : Prop :=
  ∀ e' rest rest', IsReadable e' → EndsOperand rest → EndsOperand rest' →
    e.chars ++ rest = e'.chars ++ rest' → e = e' ∧ rest = rest'

theorem isDetermined_atom (h : IsReadable e) (hshape : e.shape = .atom) : e.IsDetermined := by
  intro e' rest rest' h' hrest hrest' heq
  have hshape' : e'.shape = .atom := (h.shape_eq h' hrest hrest' heq).trans hshape
  obtain ⟨hchars, hrests⟩ := append_inj_of_chars (h.isAtomText hshape).chars
    (h'.isAtomText hshape').chars hrest.isDelimited hrest'.isDelimited heq
  exact ⟨h.atom_inj h' hshape hshape' hchars, hrests⟩

theorem isDetermined_negation {operand : Expr} (h : IsReadable operand)
    (hoperand : operand.IsDetermined) : (Expr.unary .neg operand).IsDetermined := by
  intro e' rest rest' h' hrest hrest' heq
  obtain ⟨operand', rfl, hreadable⟩ :=
    h'.of_shape_negation ((IsReadable.negation h).shape_eq h' hrest hrest' heq)
  have hbehind : operand.chars ++ rest = operand'.chars ++ rest' := (List.cons.inj heq).2
  obtain ⟨rfl, hrests⟩ := hoperand operand' rest rest' hreadable hrest hrest' hbehind
  exact ⟨rfl, hrests⟩

theorem isDetermined_call {name : String} {fn : Function} {description : String} {arg : Expr}
    (hname : Names.lookup name = some (.function fn description)) (h : IsReadable arg)
    (harg : arg.IsDetermined) : (Expr.call name arg).IsDetermined := by
  intro e' rest rest' h' hrest hrest' heq
  obtain ⟨name', fn', description', arg', rfl, hname', hreadable⟩ :=
    h'.of_shape_call ((IsReadable.call hname h).shape_eq h' hrest hrest' heq)
  simp only [Expr.chars, List.append_assoc, List.cons_append, List.nil_append] at heq
  obtain ⟨hnames, hbehind⟩ := append_inj_of_chars (isAtomText_name hname).chars
    (isAtomText_name hname').chars (isDelimited_opener _) (isDelimited_opener _) heq
  obtain rfl : name = name' := String.toList_inj.mp hnames
  obtain ⟨rfl, hclosed⟩ := harg arg' _ _ hreadable (endsOperand_closer _) (endsOperand_closer _)
    (List.cons.inj hbehind).2
  exact ⟨rfl, (List.cons.inj hclosed).2⟩

theorem isDetermined_binary {level : Level} {kind : Kind} {op : BinaryOp} {l r : Expr}
    (hop : Operator level kind op) (hl : IsReadable l) (hr : IsReadable r)
    (hleft : l.IsDetermined) (hright : r.IsDetermined) : (Expr.binary op l r).IsDetermined := by
  intro e' rest rest' h' hrest hrest' heq
  obtain ⟨level', kind', op', l', r', rfl, hop', hl', hr'⟩ :=
    h'.of_shape_group ((IsReadable.binary hop hl hr).shape_eq h' hrest hrest' heq)
  simp only [Expr.chars, List.append_assoc, List.cons_append, List.nil_append] at heq
  obtain ⟨rfl, hmiddle⟩ := hleft l' _ _ hl' (endsOperand_space _) (endsOperand_space _)
    (List.cons.inj heq).2
  obtain ⟨hsymbols, hbehind⟩ := append_inj_of_chars hop.symbol_chars hop'.symbol_chars
    (endsOperand_space _).isDelimited (endsOperand_space _).isDelimited (List.cons.inj hmiddle).2
  obtain rfl : op = op' := hop.symbol_inj hop' (String.toList_inj.mp hsymbols)
  obtain ⟨rfl, hclosed⟩ := hright r' _ _ hr' (endsOperand_closer _) (endsOperand_closer _)
    (List.cons.inj hbehind).2
  exact ⟨rfl, (List.cons.inj hclosed).2⟩

theorem IsReadable.isDetermined (h : IsReadable e) : e.IsDetermined := by
  induction h with
  | number hcode => exact isDetermined_atom (.number hcode) rfl
  | constant hname => exact isDetermined_atom (.constant hname) rfl
  | binary hop hl hr ihl ihr => exact isDetermined_binary hop hl hr ihl ihr
  | negation he ih => exact isDetermined_negation he ih
  | call hname he ih => exact isDetermined_call hname he ih

theorem IsReadable.chars_inj (h : IsReadable e) (h' : IsReadable e') (heq : e.chars = e'.chars) :
    e = e' := by
  have hends : EndsOperand [] := fun c hc => by cases hc
  exact (h.isDetermined e' [] [] h' hends hends (by rw [heq])).1

theorem chars_of_text? [Limits] {t : Expr} {text : String} (h : t.text? = some text) :
    text.toList = t.chars := by
  rw [Expr.text?] at h
  split at h
  · rw [← Option.some.inj h, String.toList_ofList]
  · cases h

/-- Trees that were read are equal if they are written alike, whatever numbers they hold. -/
theorem eq_of_chars_eq [Limits] {source source' : List Char} {t t' : Expr}
    (h : (readLine source).result = .ok t) (h' : (readLine source').result = .ok t') :
    (t.chars = t'.chars → t = t') ∧
      ∀ text, t.text? = some text → t'.text? = some text → t = t' := by
  have hinj := (isReadable_of_readLine h).chars_inj (isReadable_of_readLine h')
  refine ⟨hinj, fun text htext htext' => hinj ?_⟩
  rw [← chars_of_text? htext, chars_of_text? htext']

/-- The sign of an exponent is not taken for an operator. -/
theorem eq_of_chars_eq_exponent :
    ∃ t t', (readLine ('1' :: List.replicate 16 '0')).result = .ok t ∧
      (readLine ['1', '-', 'e', '+', '1', '6']).result = .ok t' ∧ t.chars ≠ t'.chars := by
  have hexponent : (readLine ('1' :: List.replicate 16 '0')).result =
      .ok (.number 10000000000000000) := by decide +kernel
  have hsum : (readLine ['1', '-', 'e', '+', '1', '6']).result =
      .ok (.binary .add (.binary .sub (.number 1) (.constant "e" Names.e)) (.number 16)) := by
    decide +kernel
  refine ⟨_, _, hexponent, hsum, fun heq => ?_⟩
  cases (eq_of_chars_eq hexponent hsum).1 heq

end LineCalculator
