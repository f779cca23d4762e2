import LineCalculator.Proofs.Grammar.Phrase
import LineCalculator.Proofs.Lexical.Lexeme

/-!
# Words that can be completed to a phrase

Words are completable at a level when further words make a phrase of that level out of them.  What
the parser has used up before it objects to a word is always completable, and the lemmas of this
file say so for each form of phrase that it can be in the middle of.
-/

namespace LineCalculator

/-- A word whose text is a lexeme of its kind and whose value is the lexeme's. -/
def Word.IsLexical (w : Word) : Prop :=
  IsLexeme w.kind w.text ∧ w.value = lexemeValue w.kind w.text

/-- Further words make a phrase out of some words. -/
def Completable (level : Level) (ws : List Word) : Prop :=
  ∃ more e, (∀ w ∈ more, w.IsLexical) ∧ Phrase level (ws ++ more) none e

/-- The word `1`. -/
def Word.one : Word :=
  ⟨.number, ['1'], Decimal.read ['1']⟩

theorem Word.isLexical_one : Word.one.IsLexical := by
  have hdigit : ∀ c ∈ ['1'], c.isDigit = true ∨ c = '.' := by
    intro c hc
    rw [List.mem_singleton.mp hc]
    decide
  exact ⟨.number (List.cons_ne_nil _ _) hdigit (by decide), rfl⟩

theorem Brackets.exists_word {l r : Kind} (h : Brackets l r) :
    ∃ w : Word, w.kind = r ∧ w.IsLexical := by
  cases h with
  | round => exact ⟨⟨.rparen, [')'], 0⟩, rfl, .mark rfl, rfl⟩
  | square => exact ⟨⟨.rbracket, [']'], 0⟩, rfl, .mark rfl, rfl⟩

theorem phrase_one (level : Level) (next : Option Kind) :
    Phrase level [Word.one] next (.number Word.one.value) := by
  have hterm : Phrase .term [Word.one] next (.number Word.one.value) := .number rfl
  by_cases hlevel : level = .term
  · rw [hlevel]
    exact hterm
  · exact Phrase.of_unary (.lift .term hterm) hlevel

theorem Phrase.completable {level : Level} {ws : List Word} {next : Option Kind} {e : Expr}
    (h : Phrase level ws next e) : Completable level ws :=
  ⟨[], e, by simp, by simpa using h.stop (by decide)⟩

theorem completable_nil (level : Level) : Completable level [] :=
  ⟨[Word.one], _, by simp [Word.isLexical_one], phrase_one level none⟩

theorem Completable.lift {level tighter : Level} {ws : List Word}
    (htighter : tighter.Tighter level) (h : Completable tighter ws) : Completable level ws := by
  obtain ⟨more, e, hmore, he⟩ := h
  exact ⟨more, e, hmore, .lift htighter he⟩

theorem Completable.binary {level tighter : Level} {op : BinaryOp} {w : Word} {ls rs : List Word}
    {l : Expr} (hop : Operator level w.kind op) (htighter : tighter.Tighter level)
    (hl : Phrase level ls (some w.kind) l) (hr : Completable tighter rs) :
    Completable level (ls ++ w :: rs) := by
  obtain ⟨more, r, hmore, hr⟩ := hr
  exact ⟨more, .binary op l r, hmore, by simpa using Phrase.binary hop htighter hl hr⟩

theorem Completable.negation {w : Word} {ws : List Word} (hw : w.kind = .minus)
    (h : Completable .unary ws) : Completable .unary (w :: ws) := by
  obtain ⟨more, e, hmore, he⟩ := h
  exact ⟨more, .unary .neg e, hmore, .negation hw he⟩

theorem Completable.group {l : Word} {r : Kind} {ws : List Word} (hbrackets : Brackets l.kind r)
    (h : Completable .sum ws) : Completable .term (l :: ws) := by
  obtain ⟨more, e, hmore, he⟩ := h
  obtain ⟨w, rfl, hw⟩ := hbrackets.exists_word
  refine ⟨more ++ [w], e, ?_, ?_⟩
  · simpa [or_imp, forall_and, hw] using hmore
  · simpa using Phrase.group hbrackets (he.stop hbrackets.right_ne_caret)

theorem Completable.groupCall {f l : Word} {r : Kind} {ws : List Word} (hf : f.NamesFunction)
    (hbrackets : Brackets l.kind r) (h : Completable .sum ws) :
    Completable .term (f :: l :: ws) := by
  obtain ⟨more, e, hmore, he⟩ := h
  obtain ⟨w, rfl, hw⟩ := hbrackets.exists_word
  refine ⟨more ++ [w], .call f.name e, ?_, ?_⟩
  · simpa [or_imp, forall_and, hw] using hmore
  · simpa using Phrase.groupCall hf hbrackets (he.stop hbrackets.right_ne_caret)

theorem completable_function {f : Word} (hf : f.NamesFunction) : Completable .term [f] := by
  refine ⟨[Word.one], _, by simp [Word.isLexical_one],
    .bareCall hf ?_ (by decide) (phrase_one .power none)⟩
  intro l r hbrackets
  cases hbrackets <;> decide

theorem Completable.bareCall {f : Word} {ws : List Word} (hf : f.NamesFunction)
    (hopen : ∀ l r, Brackets l r → front ws ≠ some l) (h : Completable .power ws) :
    Completable .term (f :: ws) := by
  cases ws with
  | nil => exact completable_function hf
  | cons w ws =>
      obtain ⟨more, e, hmore, he⟩ := h
      have hopen' : ∀ l r, Brackets l r → front (w :: ws ++ more) ≠ some l := by
        simpa [front] using hopen
      exact ⟨more, .call f.name e, hmore, .bareCall hf hopen' (by decide) he⟩

/-! ## An operator behind a phrase -/

section Operators

variable {level tighter : Level} {op : BinaryOp} {w : Word} {ws : List Word} {next : Option Kind}
  {e : Expr}

/-- A phrase in front of an operator of its own level can be completed behind the operator. -/
theorem Operator.completable (hop : Operator level w.kind op)
    (h : Phrase level ws (some w.kind) e) : Completable level (ws ++ [w]) := by
  obtain ⟨tighter, htighter, -⟩ := hop.exists_tighter
  exact .binary hop htighter h (completable_nil tighter)

theorem front_append_ne (hopen : ∀ l r, Brackets l r → front ws ≠ some l)
    (hws : ws ≠ []) (more : List Word) : ∀ l r, Brackets l r → front (ws ++ more) ≠ some l := by
  obtain ⟨w, ws, rfl⟩ := List.exists_cons_of_ne_nil hws
  exact hopen

/-- What a caret raises is the phrase in front of it, unless this ends in a bare call, whose argument
is raised instead. -/
theorem Phrase.before_caret (h : Phrase level ws next e) (hw : w.kind = .caret) :
    Phrase level ws (some .caret) e ∨ Completable level (ws ++ [w]) := by
  have hop : Operator .power w.kind .pow := hw ▸ .caret
  induction h with
  | number hnumber => exact Or.inl (.number hnumber)
  | constant hconstant => exact Or.inl (.constant hconstant)
  | group hbrackets he => exact Or.inl (.group hbrackets he)
  | groupCall hf hbrackets he => exact Or.inl (.groupCall hf hbrackets he)
  | @bareCall f ws next e hf hopen _ he ih =>
      -- The argument is a whole power, so the caret is part of it and not of what holds the call.
      have harg : Completable .power (ws ++ [w]) := by
        rcases ih with hphrase | hcompletable
        · exact hop.completable (hw ▸ hphrase)
        · exact hcompletable
      exact Or.inr (.bareCall hf (front_append_ne hopen he.ne_nil [w]) harg)
  | negation hminus _ ih =>
      rcases ih with hphrase | hcompletable
      · exact Or.inl (.negation hminus hphrase)
      · exact Or.inr (.negation hminus hcompletable)
  | binary hop' htighter hl _ _ ihr =>
      rcases ihr with hphrase | hcompletable
      · exact Or.inl (.binary hop' htighter hl hphrase)
      · refine Or.inr ?_
        rw [List.append_assoc]
        exact .binary hop' htighter hl hcompletable
  | lift htighter _ ih =>
      rcases ih with hphrase | hcompletable
      · exact Or.inl (.lift htighter hphrase)
      · exact Or.inr (.lift htighter hcompletable)

theorem Level.Tighter.unique {tighter' : Level} (h : tighter.Tighter level)
    (h' : tighter'.Tighter level) : tighter = tighter' := by
  cases h <;> cases h' <;> rfl

/-- If a word can stand behind every phrase of a level, it can stand behind every phrase of the next
looser level. -/
theorem completable_of_tighter (htighter : tighter.Tighter level) (hlevel : level ≠ .unary)
    (hword : ∀ ws e, Phrase tighter ws next e → Completable tighter (ws ++ [w]))
    (h : Phrase level ws next e) : Completable level (ws ++ [w]) := by
  cases h with
  | binary hop htighter' hl hr =>
      obtain rfl := htighter.unique htighter'
      rw [List.append_assoc]
      exact .binary hop htighter hl (hword _ _ hr)
  | lift htighter' he =>
      obtain rfl := htighter.unique htighter'
      exact .lift htighter (hword _ _ he)
  | negation => exact absurd rfl hlevel
  | _ => cases htighter

theorem Operator.kind_eq_caret {k : Kind} (h : Operator .power k op) : k = .caret := by
  cases h
  rfl

theorem Operator.kind_ne_caret {k : Kind} (h : Operator level k op) (hlevel : level ≠ .power) :
    k ≠ .caret := by
  rintro rfl
  cases h
  exact hlevel rfl

/-- Behind a whole sum any operator can stand. -/
theorem Phrase.completable_operator (hop : Operator level w.kind op) (h : Phrase .sum ws next e) :
    Completable .sum (ws ++ [w]) := by
  have hsum : (∀ ws e, Phrase .product ws next e → Completable .product (ws ++ [w])) →
      Completable .sum (ws ++ [w]) :=
    fun hproduct => completable_of_tighter .product (by decide) hproduct h
  have hstop : level ≠ .power → some w.kind ≠ some Kind.caret := by
    intro hlevel hcaret
    exact hop.kind_ne_caret hlevel (Option.some.inj hcaret)
  cases level with
  | sum => exact hop.completable (h.stop (hstop (by decide)))
  | product =>
      refine hsum fun ws e hproduct => ?_
      exact hop.completable (hproduct.stop (hstop (by decide)))
  | power =>
      refine hsum fun ws e hproduct => ?_
      refine completable_of_tighter .power (by decide) (fun ws e hpower => ?_) hproduct
      rcases hpower.before_caret hop.kind_eq_caret with hphrase | hcompletable
      · rw [← hop.kind_eq_caret] at hphrase
        exact hop.completable hphrase
      · exact hcompletable
  | unary => nomatch hop
  | term => nomatch hop

end Operators

end LineCalculator
