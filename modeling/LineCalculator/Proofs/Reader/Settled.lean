import LineCalculator.Proofs.Grammar.Completion
import LineCalculator.Proofs.Reader.Run

/-!
# Settled runs

Readers look one word ahead, and the limit on depth can only cut a run short.  A run is *settled*
when it stays the same if the limit is raised and if what is left unread is exchanged for anything
that starts with the same word.  This file shows that every reader of the grammar has settled runs
only, and what their verdicts say about the words that were used up: a tree comes from a phrase that
cannot be made longer, and what was used up before a failure can be completed.
-/

namespace LineCalculator

/-- What is left unread looks the same to a reader that sees one word ahead. -/
structure SameFront (rest rest' : List Word) (ending ending' : Option LexicalError) : Prop where
  head?_eq : rest.head? = rest'.head?
  ending_eq : rest = [] → ending = ending'

/-- From depth `d` on, the readers use up the same words with the same verdict whenever what is left
looks the same.  A run that was too deep is settled for its own depth only. -/
def Settles {α : Type} (p : Nat → Parser α) (d : Nat) (used rest : List Word)
    (ending : Option LexicalError) (v : Verdict α) : Prop :=
  ∀ d' ≥ d, (v = .failed .tooDeep → d' = d) → ∀ rest' ending', SameFront rest rest' ending ending' →
    Runs (p d') (used ++ rest') ending' v rest'

variable {α β : Type} {d : Nat} {used rest : List Word} {ending : Option LexicalError}

theorem SameFront.refl (rest : List Word) (ending : Option LexicalError) :
    SameFront rest rest ending ending :=
  ⟨rfl, fun _ => rfl⟩

theorem SameFront.append {rest' : List Word} {ending' : Option LexicalError}
    (h : SameFront rest rest' ending ending') (used : List Word) :
    SameFront (used ++ rest) (used ++ rest') ending ending' := by
  constructor
  · cases used with
    | nil => exact h.head?_eq
    | cons w used => rfl
  · intro hnil
    exact h.ending_eq (List.append_eq_nil_iff.mp hnil).2

theorem SameFront.isClear {rest' : List Word} {ending' : Option LexicalError}
    (h : SameFront rest rest' ending ending') (hclear : IsClear rest ending) :
    IsClear rest' ending' := by
  rintro rfl
  have hnil : rest = [] := List.head?_eq_none_iff.mp h.head?_eq
  rw [← h.ending_eq hnil]
  exact hclear hnil

theorem Settles.runs {p : Nat → Parser α} {v : Verdict α} (h : Settles p d used rest ending v) :
    Runs (p d) (used ++ rest) ending v rest :=
  h d (Nat.le_refl d) (fun _ => rfl) rest ending (.refl rest ending)

theorem Settles.bind {p : Nat → Parser α} {f : Nat → α → Parser β} {a : α} {v : Verdict β}
    {used' mid : List Word} (hp : Settles p d used mid ending (.read a))
    (hmid : mid = used' ++ rest) (hf : Settles (fun d => f d a) d used' rest ending v) :
    Settles (fun d => p d >>= f d) d (used ++ used') rest ending v := by
  intro d' hd hdeep rest' ending' hfront
  subst hmid
  rw [List.append_assoc]
  exact (hp d' hd (by simp) _ _ (hfront.append used')).bind (hf d' hd hdeep _ _ hfront)

/-- Composition with a reader that uses up nothing. -/
theorem Settles.bind_nil {p : Nat → Parser α} {f : Nat → α → Parser β} {a : α} {v : Verdict β}
    (hp : Settles p d used rest ending (.read a))
    (hf : Settles (fun d => f d a) d [] rest ending v) :
    Settles (fun d => p d >>= f d) d used rest ending v := by
  rw [← List.append_nil used]
  exact hp.bind rfl hf

theorem Settles.bind_failed {p : Nat → Parser α} {f : Nat → α → Parser β} {failure : Failure}
    (hp : Settles p d used rest ending (.failed failure)) :
    Settles (fun d => p d >>= f d) d used rest ending (.failed failure) := by
  intro d' hd hdeep rest' ending' hfront
  exact (hp d' hd (by simpa using hdeep) _ _ hfront).bind_failed

theorem Settles.of_succ {p : Nat → Parser α} {v : Verdict α}
    (h : Settles (fun d => p (d + 1)) d used rest ending v) :
    Settles p (d + 1) used rest ending v := by
  intro d' hd hdeep rest' ending' hfront
  obtain ⟨k, rfl⟩ : ∃ k, d' = k + 1 := ⟨d' - 1, by omega⟩
  exact h k (by omega) (fun hv => by have := hdeep hv; omega) rest' ending' hfront

/-! ## Single words -/

theorem settles_pure (a : α) : Settles (fun _ => pure a) d [] rest ending (.read a) :=
  fun _ _ _ _ _ _ => .pure a

theorem settles_peek {f : Nat → Option Word → Parser β} {v : Verdict β} {o : Option Word}
    (ho : (used ++ rest).head? = o) (hf : Settles (fun d => f d o) d used rest ending v) :
    Settles (fun d => Parser.peek >>= f d) d used rest ending v := by
  intro d' hd hdeep rest' ending' hfront
  refine .bind runs_peek ?_
  rw [← (hfront.append used).head?_eq, ho]
  exact hf d' hd hdeep rest' ending' hfront

theorem settles_refuse (fault : GrammarFault) :
    Settles (fun _ => (Parser.refuse fault : Parser α)) d [] rest ending
      (.failed (.refused fault)) :=
  fun _ _ _ _ _ _ => runs_refuse fault

theorem settles_checkEnding (hclear : IsClear rest ending) :
    Settles (fun _ => Parser.checkEnding) d [] rest ending (.read ()) :=
  fun _ _ _ _ _ hfront => runs_checkEnding (hfront.isClear hclear)

theorem settles_advance (w : Word) (hclear : IsClear rest ending) :
    Settles (fun _ => Parser.advance) d [w] rest ending (.read ()) :=
  fun _ _ _ _ _ hfront => runs_advance (hfront.isClear hclear)

theorem settles_advance_failed (w : Word) (e : LexicalError) :
    Settles (fun _ => Parser.advance) d [w] [] (some e) (.failed (.lexical e)) := by
  intro _ _ _ rest' ending' hfront
  have hnil : rest' = [] := List.head?_eq_none_iff.mp hfront.head?_eq.symm
  rw [hnil, ← hfront.ending_eq rfl]
  exact runs_advance_failed w e

/-! ## What a verdict says -/

/-- The kinds of word in front of which a phrase of a level cannot go on. -/
def Stops : Level → Option Kind → Prop
  | .sum, next => next ∉ [some .plus, some .minus, some .star, some .slash, some .caret]
  | .product, next => next ∉ [some .star, some .slash, some .caret]
  | .power, next => next ≠ some .caret
  | .unary, _ => True
  | .term, _ => True

/-- How reading can have failed in front of `rest` when it is known of the words that were used up
that they can be completed. -/
inductive FailsAt (completable : Prop) (rest : List Word) (ending : Option LexicalError) :
    Failure → Prop
  | lexical {e : LexicalError} (hcompletable : completable) (hrest : rest = [])
      (hending : ending = some e) : FailsAt completable rest ending (.lexical e)
  | refused {fault : GrammarFault} (hcompletable : completable) (hclear : IsClear rest ending) :
      FailsAt completable rest ending (.refused fault)
  | tooDeep : FailsAt completable rest ending .tooDeep

/-- What the verdict of a reader of a level says about the words that it used up. -/
def Verdict.IsRight (level : Level) (used rest : List Word) (ending : Option LexicalError) :
    Verdict Expr → Prop
  | .read e => Phrase level used (front rest) e ∧ Stops level (front rest) ∧ IsClear rest ending
  | .failed failure => FailsAt (Completable level used) rest ending failure

/-- All runs of a reader are settled, and their verdicts are right for a level. -/
def Meets (p : Nat → Parser Expr) (d : Nat) (level : Level) : Prop :=
  ∀ ws ending, IsClear ws ending → ∃ used rest v, ws = used ++ rest ∧
    Settles p d used rest ending v ∧ v.IsRight level used rest ending

theorem FailsAt.imp {p q : Prop} {failure : Failure} (h : FailsAt p rest ending failure)
    (himp : p → q) : FailsAt q rest ending failure := by
  cases h with
  | lexical hp hrest hending => exact .lexical (himp hp) hrest hending
  | refused hp hclear => exact .refused (himp hp) hclear
  | tooDeep => exact .tooDeep

/-- Either the words behind the first are clear, or a lexical fault follows the first. -/
theorem isClear_or_failed (ws : List Word) (ending : Option LexicalError) :
    IsClear ws ending ∨ ∃ e, ws = [] ∧ ending = some e := by
  cases ws with
  | nil =>
      cases ending with
      | none => exact Or.inl fun _ => rfl
      | some e => exact Or.inr ⟨e, rfl, rfl⟩
  | cons w ws => exact Or.inl (isClear_cons w ws ending)

end LineCalculator
