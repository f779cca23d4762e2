import LineCalculator.Proofs.Grammar.Completion
import LineCalculator.Proofs.Number.Nearest

/-!
# Trees of lexemes

A phrase made of lexemes is the phrase of a tree that holds only what lexemes can stand for: doubles
without sign, names of the table as what they stand for there, and the operators of the language.
-/

namespace LineCalculator

open Binary64

/-- The trees that hold only what lexemes can stand for. -/
inductive IsReadable : Expr → Prop
  | number {code : Nat} (hcode : code ≤ infinity) : IsReadable (.number (ofCode code))
  | constant {name : String} {value : Float} {description : String}
      (hname : Names.lookup name = some (.constant value description)) :
      IsReadable (.constant name value)
  | binary {level : Level} {kind : Kind} {op : BinaryOp} {l r : Expr}
      (hop : Operator level kind op) (hl : IsReadable l) (hr : IsReadable r) :
      IsReadable (.binary op l r)
  | negation {e : Expr} (he : IsReadable e) : IsReadable (.unary .neg e)
  | call {name : String} {fn : Function} {description : String} {e : Expr}
      (hname : Names.lookup name = some (.function fn description)) (he : IsReadable e) :
      IsReadable (.call name e)

/-- The numbers that stand in a tree, from left to right. -/
def Expr.numbers : Expr → List Float
  | number value => [value]
  | constant _ _ => []
  | binary _ left right => left.numbers ++ right.numbers
  | unary _ operand => operand.numbers
  | call _ arg => arg.numbers
  | foreign _ => []

theorem Word.IsLexical.exists_code {w : Word} (h : w.IsLexical) (hw : w.kind = .number) :
    ∃ code ≤ infinity, w.value = ofCode code := by
  have hvalue : w.value = Decimal.read w.text := by
    rw [h.2, lexemeValue, if_pos hw]
  exact ⟨_, nearest_le_infinity _ (Nat.pow_pos (by decide)), hvalue⟩

theorem Phrase.isReadable {level : Level} {ws : List Word} {next : Option Kind} {e : Expr}
    (h : Phrase level ws next e) (hws : ∀ w ∈ ws, w.IsLexical) : IsReadable e := by
  induction h with
  | number hw =>
      obtain ⟨code, hcode, hvalue⟩ := (hws _ (by simp)).exists_code hw
      rw [hvalue]
      exact .number hcode
  | constant hw =>
      obtain ⟨-, description, hname⟩ := hw
      exact .constant hname
  | group _ _ ih => exact ih fun w hw => hws w (by simp [hw])
  | groupCall hf _ _ ih =>
      obtain ⟨-, fn, description, hname⟩ := hf
      exact .call hname (ih fun w hw => hws w (by simp [hw]))
  | bareCall hf _ _ _ ih =>
      obtain ⟨-, fn, description, hname⟩ := hf
      exact .call hname (ih fun w hw => hws w (by simp [hw]))
  | negation _ _ ih => exact .negation (ih fun w hw => hws w (by simp [hw]))
  | binary hop _ _ _ ihl ihr =>
      have hl := ihl fun w hw => hws w (by simp [hw])
      have hr := ihr fun w hw => hws w (by simp [hw])
      exact .binary hop hl hr
  | lift _ _ ih => exact ih hws

/-- Every number in a tree of lexemes is the double of a code. -/
theorem IsReadable.exists_code {e : Expr} (h : IsReadable e) {x : Float} (hx : x ∈ e.numbers) :
    ∃ code ≤ infinity, x = ofCode code := by
  induction h with
  | number hcode => exact ⟨_, hcode, List.mem_singleton.mp hx⟩
  | constant => cases hx
  | binary _ _ _ ihl ihr => exact (List.mem_append.mp hx).elim ihl ihr
  | negation _ ih => exact ih hx
  | call _ _ ih => exact ih hx

theorem Brackets.ne_name {l r : Kind} (h : Brackets l r) : l ≠ .name ∧ r ≠ .name := by
  cases h <;> decide

theorem Operator.ne_name {level : Level} {k : Kind} {op : BinaryOp} (h : Operator level k op) :
    k ≠ .name := by
  cases h <;> decide

theorem Word.NamesFunction.lookup_ne_none {w : Word} (h : w.NamesFunction) :
    Names.lookup w.name ≠ none := by
  obtain ⟨-, fn, description, hname⟩ := h
  simp [hname]

/-- Every name in a phrase stands for something. -/
theorem Phrase.lookup_ne_none {level : Level} {ws : List Word} {next : Option Kind} {e : Expr}
    (h : Phrase level ws next e) : ∀ w ∈ ws, w.kind = .name → Names.lookup w.name ≠ none := by
  induction h with
  | number hnumber =>
      refine List.forall_mem_singleton.mpr fun hw => ?_
      cases hnumber.symm.trans hw
  | constant hconstant =>
      refine List.forall_mem_singleton.mpr fun _ => ?_
      obtain ⟨-, description, hname⟩ := hconstant
      simp [hname]
  | group hbrackets _ ih =>
      obtain ⟨hopen, hclose⟩ := hbrackets.ne_name
      refine List.forall_mem_cons.mpr ⟨fun hw => absurd hw hopen, ?_⟩
      refine List.forall_mem_append.mpr ⟨ih, ?_⟩
      exact List.forall_mem_singleton.mpr fun hw => absurd hw hclose
  | groupCall hf hbrackets _ ih =>
      obtain ⟨hopen, hclose⟩ := hbrackets.ne_name
      refine List.forall_mem_cons.mpr ⟨fun _ => hf.lookup_ne_none, ?_⟩
      refine List.forall_mem_cons.mpr ⟨fun hw => absurd hw hopen, ?_⟩
      refine List.forall_mem_append.mpr ⟨ih, ?_⟩
      exact List.forall_mem_singleton.mpr fun hw => absurd hw hclose
  | bareCall hf _ _ _ ih => exact List.forall_mem_cons.mpr ⟨fun _ => hf.lookup_ne_none, ih⟩
  | negation hminus _ ih =>
      refine List.forall_mem_cons.mpr ⟨fun hw => ?_, ih⟩
      cases hminus.symm.trans hw
  | binary hop _ _ _ ihl ihr =>
      have hoperator := List.forall_mem_cons.mpr ⟨fun hw => absurd hw hop.ne_name, ihr⟩
      exact List.forall_mem_append.mpr ⟨ihl, hoperator⟩
  | lift _ _ ih => exact ih

end LineCalculator
