import LineCalculator.Parser

/-!
# Runs of a reader

A reader that is run on words and on what ends them stops with a verdict in front of the words that
are left.  Runs are composed forwards: what a reader does is said by running its parts one after the
other.  The objections that were made before a run have no influence on it.
-/

namespace LineCalculator

/-- How reading can fail. -/
inductive Failure where
  | lexical (error : LexicalError)
  | refused (fault : GrammarFault)
  | tooDeep
  deriving DecidableEq

/-- What reading leads to. -/
inductive Verdict (α : Type) where
  | read (a : α)
  | failed (failure : Failure)

/-- The result of a reader that stops with a verdict in front of some words. -/
def Verdict.result {α : Type} (rest : List Word) (ending : Option LexicalError)
    (refusals : List Refusal) : Verdict α → EStateM.Result ReadFailure Input α
  | read a => .ok a ⟨rest, ending, refusals⟩
  | failed (.lexical e) => .error (.lexical e) ⟨rest, ending, refusals⟩
  | failed (.refused fault) =>
    .error (.refused ⟨fault, rest.length⟩)
      ⟨rest, ending, refusals ++ [⟨fault, rest.length⟩]⟩
  | failed .tooDeep => .error .tooDeep ⟨rest, ending, refusals⟩

/-- The reader stops with the verdict in front of `rest`, whatever it objected to before. -/
def Runs {α : Type} (p : Parser α) (ws : List Word) (ending : Option LexicalError)
    (v : Verdict α) (rest : List Word) : Prop :=
  ∀ refusals, p ⟨ws, ending, refusals⟩ = v.result rest ending refusals

/-- No fault stands in front of the words. -/
def IsClear (ws : List Word) (ending : Option LexicalError) : Prop :=
  ws = [] → ending = none

variable {α β : Type} {ws mid rest : List Word} {ending : Option LexicalError}

theorem isClear_cons (w : Word) (ws : List Word) (ending : Option LexicalError) :
    IsClear (w :: ws) ending := by
  intro h
  cases h

theorem Verdict.result_inj {v v' : Verdict α} {rest rest' : List Word}
    (h : v.result rest ending [] = v'.result rest' ending []) : v = v' ∧ rest = rest' := by
  cases v with
  | read a =>
      cases v' with
      | read a' => simpa [Verdict.result] using h
      | failed f' => cases f' <;> simp [Verdict.result] at h
  | failed f =>
      cases v' with
      | read a' => cases f <;> simp [Verdict.result] at h
      | failed f' => cases f <;> cases f' <;> simp_all [Verdict.result]

theorem Runs.unique {p : Parser α} {v v' : Verdict α} {rest' : List Word}
    (h : Runs p ws ending v rest) (h' : Runs p ws ending v' rest') : v = v' ∧ rest = rest' :=
  Verdict.result_inj ((h []).symm.trans (h' []))

/-! ## Composition -/

theorem Runs.pure (a : α) : Runs (pure a) ws ending (.read a) ws :=
  fun _ => rfl

theorem Runs.bind {p : Parser α} {f : α → Parser β} {a : α} {v : Verdict β}
    (hp : Runs p ws ending (.read a) mid) (hf : Runs (f a) mid ending v rest) :
    Runs (p >>= f) ws ending v rest := by
  intro refusals
  change EStateM.bind p f _ = _
  rw [EStateM.bind, hp refusals]
  exact hf refusals

theorem Runs.bind_failed {p : Parser α} {f : α → Parser β} {failure : Failure}
    (hp : Runs p ws ending (.failed failure) rest) :
    Runs (p >>= f) ws ending (.failed failure) rest := by
  intro refusals
  change EStateM.bind p f _ = _
  rw [EStateM.bind, hp refusals]
  cases failure <;> rfl

/-! ## Single words -/

theorem runs_peek : Runs Parser.peek ws ending (.read ws.head?) ws :=
  fun _ => rfl

theorem runs_refuse (fault : GrammarFault) :
    Runs (Parser.refuse fault : Parser α) ws ending (.failed (.refused fault)) ws :=
  fun _ => rfl

theorem runs_checkEnding (h : IsClear ws ending) :
    Runs Parser.checkEnding ws ending (.read ()) ws := by
  intro refusals
  cases ws with
  | nil =>
      rw [h rfl]
      rfl
  | cons w ws => rfl

theorem runs_checkEnding_failed (e : LexicalError) :
    Runs Parser.checkEnding [] (some e) (.failed (.lexical e)) [] :=
  fun _ => rfl

theorem runs_advance {w : Word} (h : IsClear ws ending) :
    Runs Parser.advance (w :: ws) ending (.read ()) ws :=
  fun refusals => runs_checkEnding h refusals

theorem runs_advance_failed (w : Word) (e : LexicalError) :
    Runs Parser.advance [w] (some e) (.failed (.lexical e)) [] :=
  fun _ => rfl

end LineCalculator
