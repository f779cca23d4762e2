import Mathlib.Algebra.BigOperators.Group.Finset.Basic
import Mathlib.Algebra.Order.Monoid.Defs
import Mathlib.Order.Monotone.Basic
import LineCalculator.Proofs.Lexical.States
import LineCalculator.Proofs.Reader.Objection

/-!
# Sessions

A session does one operation after the other on one lexer and its reader, and goes on whatever an
operation answers.  Every operation, whether it succeeds or fails, moves the lexer by looking for
tokens and in no other way.  So after any operations the lexer is where it would be if it had only
looked for tokens, and it is in one of the three states of a lexer.

There is one exception.  A look during which the frames run out has moved the lexer, but what it has
found is lost: the lexer holds neither a token nor a fault, wherever it stands.  It stays so until
the next look, which leads to where it would have led anyway.
-/

namespace LineCalculator

variable {α β : Type} {step : Step α} {l : Lexer} {k : Nat}

/-- A step has moved a lexer by so many looks for a token.  If it started with a token and was too
deep, what the last of the looks has found may be lost. -/
def Step.Moves (step : Step α) (l : Lexer) (k : Nat) : Prop :=
  step.lexer = l.steps k ∨
    l.current.isFound = true ∧ step.result = .error .tooDeep ∧ step.lexer = (l.steps k).bereft

theorem Step.Moves.andThen {f : α → Except ExprError β} (h : step.Moves l k) :
    (step.andThen f).Moves l k :=
  h.imp id fun ⟨hfound, hdeep, hlexer⟩ => ⟨hfound, result_andThen_of_error hdeep, hlexer⟩

namespace Lexer

/-- The lexer after the first operations of a session over a source, failed ones included. -/
def session [Limits] (source : List Char) (ops : Nat → Operation) : Nat → Lexer
  | 0 => ofSource source
  | n + 1 => ((ops n).run (session source ops n)).lexer

/-! ## One operation -/

theorem lexer_advance (l : Lexer) : l.advance.lexer = l.next := by
  rw [advance]
  split <;> rfl

theorem exists_moves_expect (l : Lexer) (kind : Kind) : ∃ k ≤ 1, (l.expect kind).Moves l k := by
  by_cases hkind : l.current.kind = kind
  · refine ⟨1, Nat.le_refl 1, Or.inl ?_⟩
    rw [expect, if_pos hkind, lexer_advance]
    rfl
  · refine ⟨0, Nat.zero_le 1, Or.inl ?_⟩
    rw [expect, if_neg hkind]
    rfl

/-- A lexer without a token has no words. -/
theorem words_of_not_isFound (h : l.current.isFound = false) : l.words = ([], l.error) := by
  rw [words, h]
  rfl

theorem isFound_of_words (h : l.words.1 ≠ []) : l.current.isFound = true := by
  by_contra hfound
  rw [words_of_not_isFound (Bool.not_eq_true _ ▸ hfound)] at h
  exact h rfl

/-- A look that is broken off started behind a word. -/
theorem words_of_brokenOff [Limits] {production : Production} {rest : Input}
    (h : production.parser l.input = .error .brokenOff rest) :
    rest.words <:+ l.words.1 ∧ rest.words ≠ [] := by
  have hplace := failsInPlace_production production l.input
  rw [h] at hplace
  obtain ⟨hleft, hat⟩ := hplace
  cases hat with
  | brokenOff hwords => exact ⟨hleft.words_suffix, hwords⟩

theorem exists_moves_parse [Limits] (l : Lexer) (production : Production) :
    ∃ k ≤ l.words.1.length, (l.parse production).Moves l k := by
  rw [parse]
  cases hresult : production.parser l.input with
  | ok e rest => exact ⟨_, Nat.sub_le _ _, Or.inl rfl⟩
  | error failure rest =>
      cases failure with
      | brokenOff =>
          obtain ⟨hsuffix, hne⟩ := words_of_brokenOff hresult
          have hpos := List.length_pos_iff.mpr hne
          have hle := hsuffix.length_le
          refine ⟨l.words.1.length - rest.words.length + 1, by omega, Or.inr ⟨?_, rfl, ?_⟩⟩
          · exact isFound_of_words (List.length_pos_iff.mp (by omega))
          · rw [steps_add]
            rfl
      | _ => exact ⟨_, Nat.sub_le _ _, Or.inl rfl⟩

/-- An operation moves the lexer by looking for tokens a number of times. -/
theorem exists_moves_run [Limits] (l : Lexer) (op : Operation) : ∃ k, (op.run l).Moves l k := by
  cases op with
  | next => exact ⟨1, Or.inl rfl⟩
  | drain => exact ⟨_, Or.inl rfl⟩
  | advance => exact ⟨1, Or.inl l.lexer_advance⟩
  | expect kind =>
      obtain ⟨k, -, hk⟩ := l.exists_moves_expect kind
      exact ⟨k, hk.andThen⟩
  | parse production =>
      obtain ⟨k, -, hk⟩ := l.exists_moves_parse production
      exact ⟨k, hk.andThen⟩
  | evaluate =>
      obtain ⟨k, -, hk⟩ := l.exists_moves_parse .expr
      exact ⟨k, hk.andThen.andThen⟩

/-! ## What is lost -/

/-- A look does not depend on what was found before. -/
theorem steps_bereft_succ (l : Lexer) (k : Nat) : l.bereft.steps (k + 1) = l.steps (k + 1) :=
  rfl

/-- Looks add up.  What the last of them has found is lost if the step was too deep, or if it was
lost before and the step has looked for nothing. -/
theorem lexer_of_moves {first : Lexer} {more : Nat} {p : Prop} (hmoves : step.Moves l more)
    (h : l = first.steps k ∨ p ∧ l = (first.steps k).bereft) :
    step.lexer = first.steps (k + more) ∨
      (step.result = .error .tooDeep ∨ p ∧ step.lexer = l) ∧
        step.lexer = (first.steps (k + more)).bereft := by
  rw [steps_add]
  rcases h with rfl | ⟨hp, rfl⟩
  · exact hmoves.imp id fun ⟨_, hdeep, hlexer⟩ => ⟨Or.inl hdeep, hlexer⟩
  · rcases hmoves with hlexer | ⟨hfound, -⟩
    · cases more with
      | zero => exact Or.inr ⟨Or.inr ⟨hp, hlexer⟩, hlexer⟩
      | succ more => exact Or.inl (hlexer.trans (steps_bereft_succ _ more))
    · cases hfound

/-! ## Any number of operations -/

theorem isRegular_steps (source : List Char) (k : Nat) : ((ofSource source).steps k).IsRegular :=
  (isRegular_ofSource source).steps k

theorem pos_steps_mono {source : List Char} {k m : Nat} (h : k ≤ m) :
    ((ofSource source).steps k).pos ≤ ((ofSource source).steps m).pos := by
  obtain ⟨more, rfl⟩ := Nat.exists_eq_add_of_le h
  rw [steps_add]
  exact (pos_le_steps (isRegular_steps source k).pos_le more).1

section Session

variable [Limits] {source : List Char} {ops : Nat → Operation} {n : Nat}

/-- An operation of a session was too deep, and the lexer is still as it has left it. -/
def HasStayed (source : List Char) (ops : Nat → Operation) (n : Nat) : Prop :=
  ∃ m < n, ((ops m).run (session source ops m)).result = .error .tooDeep ∧
    session source ops n = session source ops (m + 1)

/-- A session is where so many looks for a token would have brought it.  What the last of them has
found may be lost if an operation was too deep and the lexer is still as it has left it. -/
def IsAfterLooks (source : List Char) (ops : Nat → Operation) (n k : Nat) : Prop :=
  session source ops n = (ofSource source).steps k ∨
    HasStayed source ops n ∧ session source ops n = ((ofSource source).steps k).bereft

theorem IsAfterLooks.succ {more : Nat} (h : IsAfterLooks source ops n k)
    (hmoves : ((ops n).run (session source ops n)).Moves (session source ops n) more) :
    IsAfterLooks source ops (n + 1) (k + more) := by
  refine (lexer_of_moves hmoves h).imp id fun ⟨hlost, hlexer⟩ => ⟨?_, hlexer⟩
  rcases hlost with hdeep | ⟨⟨m, hm, hdeep, hstayed⟩, hsame⟩
  · exact ⟨n, Nat.lt_succ_self n, hdeep, rfl⟩
  · exact ⟨m, Nat.lt_succ_of_lt hm, hdeep, hsame.trans hstayed⟩

/-- The number of times that a session has looked for a token never falls. -/
theorem exists_looks_session (source : List Char) (ops : Nat → Operation) :
    ∃ looks : Nat → Nat, Monotone looks ∧ ∀ n, IsAfterLooks source ops n (looks n) := by
  choose k hk using fun n => exists_moves_run (session source ops n) (ops n)
  refine ⟨fun n => ∑ i ∈ Finset.range n, k i, ?_, fun n => ?_⟩
  · refine monotone_nat_of_le_succ fun n => ?_
    rw [Finset.sum_range_succ]
    exact Nat.le_add_right _ _
  · induction n with
    | zero => exact Or.inl rfl
    | succ n ih =>
        dsimp only
        rw [Finset.sum_range_succ]
        exact ih.succ (hk n)

theorem IsAfterLooks.pos_eq (h : IsAfterLooks source ops n k) :
    (session source ops n).pos = ((ofSource source).steps k).pos := by
  rcases h with hsession | ⟨-, hsession⟩
  · rw [hsession]
  · rw [hsession]
    rfl

theorem IsAfterLooks.source_eq (h : IsAfterLooks source ops n k) :
    (session source ops n).source = source := by
  have hsource := source_steps k (ofSource source)
  rcases h with hsession | ⟨-, hsession⟩
  · rw [hsession]
    exact hsource
  · rw [hsession]
    exact hsource

theorem source_session (source : List Char) (ops : Nat → Operation) (n : Nat) :
    (session source ops n).source = source := by
  obtain ⟨looks, -, hlooks⟩ := exists_looks_session source ops
  exact (hlooks n).source_eq

theorem pos_session_le (source : List Char) (ops : Nat → Operation) (n : Nat) :
    (session source ops n).pos ≤ source.length := by
  obtain ⟨looks, -, hlooks⟩ := exists_looks_session source ops
  have hle := (isRegular_steps source (looks n)).pos_le
  rwa [source_steps, ← (hlooks n).pos_eq] at hle

theorem monotone_pos_session (source : List Char) (ops : Nat → Operation) :
    Monotone fun n => (session source ops n).pos := by
  obtain ⟨looks, hmono, hlooks⟩ := exists_looks_session source ops
  intro n m hnm
  dsimp only
  rw [(hlooks n).pos_eq, (hlooks m).pos_eq]
  exact pos_steps_mono (hmono hnm)

/-- After every operation of a session the lexer is where some number of looks for a token would
have brought it; this number and the cursor never go back.  The cursor is always inside the source,
and the lexer in exactly one of the three states: it holds a token that ends at the cursor, or it
holds none and nothing was looked for or is left, or it holds none because of the fault at the
cursor or just behind it.  Only after an operation that was too deep, and until the next look, it
may hold neither a token nor a fault instead of what the last look has found. -/
theorem session_invariant (source : List Char) (ops : Nat → Operation) :
    ∃ looks : Nat → Nat, Monotone looks ∧ (Monotone fun n => (session source ops n).pos) ∧
      ∀ n, (session source ops n).source = source ∧ (session source ops n).pos ≤ source.length ∧
        (session source ops n = (ofSource source).steps (looks n) ∧
            (session source ops n).IsInOneState ∨
          HasStayed source ops n ∧
            session source ops n = ((ofSource source).steps (looks n)).bereft) := by
  obtain ⟨looks, hmono, hlooks⟩ := exists_looks_session source ops
  refine ⟨looks, hmono, monotone_pos_session source ops, fun n => ⟨source_session source ops n,
    pos_session_le source ops n, (hlooks n).imp (fun hsession => ⟨hsession, ?_⟩) id⟩⟩
  rw [hsession]
  exact (isRegular_steps source (looks n)).isInOneState

end Session

/-! ## A look that is broken off -/

/-- Minus signs and open brackets in front of a literal that goes wrong. -/
def openedBefore1x : List Char :=
  List.replicate 27 '-' ++ (List.replicate 160 '(' ++ ['1', 'x', ')'])

/-- Finds a token, and reads from there. -/
def findAndRead : Nat → Operation
  | 0 => .next
  | _ => .parse .line

/-- With a thousand frames the last of them run out when the fault of the literal is about to be told.
The cursor is behind the literal, and the lexer is in none of the three states, so no number of looks
would have brought it there. -/
theorem session_not_invariant :
    ¬ (session openedBefore1x findAndRead 2).IsInOneState ∧
      ∀ k, session openedBefore1x findAndRead 2 ≠ (ofSource openedBefore1x).steps k := by
  have hlexer :
      session openedBefore1x findAndRead 2 = { source := openedBefore1x, pos := 189 } := by
    decide +kernel
  have hnot : ¬ (session openedBefore1x findAndRead 2).IsInOneState := by
    rw [hlexer]
    rintro (⟨h, -⟩ | ⟨-, h, -⟩ | ⟨-, -, h⟩)
    · cases h.isFound
    · rcases h.fresh_or_passed with h | h
      · cases congrArg Lexer.pos h
      · exact absurd h (by decide +kernel)
    · obtain ⟨e, he, -⟩ := h.exists_error
      cases he
  refine ⟨hnot, fun k hk => hnot ?_⟩
  rw [hk]
  exact (isRegular_steps _ k).isInOneState

end Lexer

end LineCalculator
