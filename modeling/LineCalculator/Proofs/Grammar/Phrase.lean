import LineCalculator.Expr
import LineCalculator.Token
import LineCalculator.Names

/-!
# The grammar

The grammar is stated as a relation between words and trees, apart from the parser.  The rule that a
bare argument goes as far as it can speaks of the word behind the argument, so a phrase is a phrase
in front of the kind of the next word, or of the end of the line.  All other rules ignore it.

Operands on the left stand on the level of the operator and operands on the right one level tighter,
which groups every chain of operators to the left.
-/

namespace LineCalculator

/-- The levels of the grammar, the loosest first. -/
inductive Level where
  | sum
  | product
  | power
  | unary
  | term
  deriving DecidableEq

/-- A level and the level next to it on the loose side. -/
inductive Level.Tighter : Level → Level → Prop
  | product : Tighter .product .sum
  | power : Tighter .power .product
  | unary : Tighter .unary .power
  | term : Tighter .term .unary

/-- The operators of a level. -/
inductive Operator : Level → Kind → BinaryOp → Prop
  | plus : Operator .sum .plus .add
  | minus : Operator .sum .minus .sub
  | star : Operator .product .star .mul
  | slash : Operator .product .slash .div
  | caret : Operator .power .caret .pow

/-- An opening bracket and the one that closes it. -/
inductive Brackets : Kind → Kind → Prop
  | round : Brackets .lparen .rparen
  | square : Brackets .lbracket .rbracket

/-- The kind of the first word, or nothing at the end of the line. -/
def front (ws : List Word) : Option Kind :=
  ws.head?.map Word.kind

/-- What a word is called in trees and in the table of names. -/
def Word.name (w : Word) : String :=
  String.ofList w.text

/-- A word that names a constant. -/
def Word.NamesConstant (w : Word) (value : Float) : Prop :=
  w.kind = .name ∧ ∃ description, Names.lookup w.name = some (.constant value description)

/-- A word that names a function. -/
def Word.NamesFunction (w : Word) : Prop :=
  w.kind = .name ∧ ∃ fn description, Names.lookup w.name = some (.function fn description)

/-- The words that make up a phrase of a level for a tree when `next` is the kind of the word behind
them. -/
inductive Phrase : Level → List Word → Option Kind → Expr → Prop
  | number {w : Word} {next : Option Kind} (hw : w.kind = .number) :
      Phrase .term [w] next (.number w.value)
  | constant {w : Word} {next : Option Kind} {value : Float} (hw : w.NamesConstant value) :
      Phrase .term [w] next (.constant w.name value)
  | group {l r : Word} {ws : List Word} {next : Option Kind} {e : Expr}
      (hbrackets : Brackets l.kind r.kind) (he : Phrase .sum ws (some r.kind) e) :
      Phrase .term (l :: (ws ++ [r])) next e
  | groupCall {f l r : Word} {ws : List Word} {next : Option Kind} {e : Expr}
      (hf : f.NamesFunction) (hbrackets : Brackets l.kind r.kind)
      (he : Phrase .sum ws (some r.kind) e) :
      Phrase .term (f :: l :: (ws ++ [r])) next (.call f.name e)
  | bareCall {f : Word} {ws : List Word} {next : Option Kind} {e : Expr}
      (hf : f.NamesFunction) (hopen : ∀ l r, Brackets l r → front ws ≠ some l)
      (hnext : next ≠ some .caret) (he : Phrase .power ws next e) :
      Phrase .term (f :: ws) next (.call f.name e)
  | negation {w : Word} {ws : List Word} {next : Option Kind} {e : Expr}
      (hw : w.kind = .minus) (he : Phrase .unary ws next e) :
      Phrase .unary (w :: ws) next (.unary .neg e)
  | binary {level tighter : Level} {op : BinaryOp} {w : Word} {ls rs : List Word}
      {next : Option Kind} {l r : Expr} (hop : Operator level w.kind op)
      (htighter : tighter.Tighter level) (hl : Phrase level ls (some w.kind) l)
      (hr : Phrase tighter rs next r) : Phrase level (ls ++ w :: rs) next (.binary op l r)
  | lift {level tighter : Level} {ws : List Word} {next : Option Kind} {e : Expr}
      (htighter : tighter.Tighter level) (he : Phrase tighter ws next e) :
      Phrase level ws next e

/-- The words of a whole line for a tree. -/
def Derives (ws : List Word) (e : Expr) : Prop :=
  Phrase .sum ws none e

theorem Brackets.right_ne_caret {l r : Kind} (h : Brackets l r) : some r ≠ some Kind.caret := by
  cases h <;> decide

theorem Phrase.ne_nil {level : Level} {ws : List Word} {next : Option Kind} {e : Expr}
    (h : Phrase level ws next e) : ws ≠ [] := by
  induction h with
  | lift _ _ ih => exact ih
  | _ => simp

/-- Of the word behind a phrase it only matters whether it raises to a power. -/
theorem Phrase.change_next {level : Level} {ws : List Word} {next next' : Option Kind} {e : Expr}
    (h : Phrase level ws next e) (hnext : next' = some .caret → next = some .caret) :
    Phrase level ws next' e := by
  induction h with
  | number hw => exact .number hw
  | constant hw => exact .constant hw
  | group hbrackets he => exact .group hbrackets he
  | groupCall hf hbrackets he => exact .groupCall hf hbrackets he
  | bareCall hf hopen hne _ ih =>
      exact .bareCall hf hopen (fun h => hne (hnext h)) (ih hnext)
  | negation hw _ ih => exact .negation hw (ih hnext)
  | binary hop htighter hl _ _ ihr => exact .binary hop htighter hl (ihr hnext)
  | lift htighter _ ih => exact .lift htighter (ih hnext)

/-- A phrase that is not raised to a power can stand in front of anything that does not raise it. -/
theorem Phrase.stop {level : Level} {ws : List Word} {next next' : Option Kind} {e : Expr}
    (h : Phrase level ws next e) (hnext' : next' ≠ some .caret) : Phrase level ws next' e :=
  h.change_next fun h => absurd h hnext'

/-- An operand is a phrase of every level but that of terms. -/
theorem Phrase.of_unary {level : Level} {ws : List Word} {next : Option Kind} {e : Expr}
    (h : Phrase .unary ws next e) (hlevel : level ≠ .term) : Phrase level ws next e := by
  have hpower : Phrase .power ws next e := .lift .unary h
  have hproduct : Phrase .product ws next e := .lift .power hpower
  cases level with
  | sum => exact .lift .product hproduct
  | product => exact hproduct
  | power => exact hpower
  | unary => exact h
  | term => exact absurd rfl hlevel

/-- A phrase of any level is a sum. -/
theorem Phrase.to_sum {level : Level} {ws : List Word} {next : Option Kind} {e : Expr}
    (h : Phrase level ws next e) : Phrase .sum ws next e := by
  cases level with
  | sum => exact h
  | product => exact .lift .product h
  | power => exact .lift .product (.lift .power h)
  | unary => exact h.of_unary (by decide)
  | term => exact Phrase.of_unary (.lift .term h) (by decide)

theorem Operator.exists_tighter {level : Level} {k : Kind} {op : BinaryOp}
    (h : Operator level k op) : ∃ tighter, Level.Tighter tighter level ∧ tighter ≠ .term := by
  cases h with
  | plus => exact ⟨_, .product, by decide⟩
  | minus => exact ⟨_, .product, by decide⟩
  | star => exact ⟨_, .power, by decide⟩
  | slash => exact ⟨_, .power, by decide⟩
  | caret => exact ⟨_, .unary, by decide⟩

theorem Operator.ne_term {level : Level} {k : Kind} {op : BinaryOp} (h : Operator level k op) :
    level ≠ .term := by
  cases h <;> decide

/-- Operands with an operator between them are a sum. -/
theorem Phrase.binary_of_unary {level : Level} {op : BinaryOp} {w : Word} {ls rs : List Word}
    {next : Option Kind} {l r : Expr} (hop : Operator level w.kind op)
    (hl : Phrase .unary ls (some w.kind) l) (hr : Phrase .unary rs next r) :
    Phrase .sum (ls ++ w :: rs) next (.binary op l r) := by
  obtain ⟨tighter, htighter, hne⟩ := hop.exists_tighter
  exact (Phrase.binary hop htighter (hl.of_unary hop.ne_term) (hr.of_unary hne)).to_sum

/-- A term starts with a number, a name or an opening bracket. -/
theorem Phrase.front_term {ws : List Word} {next : Option Kind} {e : Expr}
    (h : Phrase .term ws next e) (rest : List Word) :
    front (ws ++ rest) = some .number ∨ front (ws ++ rest) = some .name ∨
      ∃ l r, Brackets l r ∧ front (ws ++ rest) = some l := by
  cases h with
  | number hw => simp [front, hw]
  | constant hw => simp [front, hw.1]
  | group hbrackets => exact Or.inr (Or.inr ⟨_, _, hbrackets, by simp [front]⟩)
  | groupCall hf => simp [front, hf.1]
  | bareCall hf => simp [front, hf.1]
  | binary hop => cases hop
  | lift htighter => cases htighter

end LineCalculator
