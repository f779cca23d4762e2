import LineCalculator.Proofs.Grammar.Opening
import LineCalculator.Proofs.Reader.Agreement
import LineCalculator.Proofs.Reader.Completeness

/-!
# Depth

The frames of a procedure run out only where enough is open to have taken them up.  Every way around
through the procedures opens something, and what is open takes up at most six frames on the way to
what it is in front of.  A complete operand leaves nothing open, since a chain of operators returns
from each operand before it calls for the next.  So it does not matter how many operands came before.
-/

namespace LineCalculator

variable {α β : Type} {input : Input} {m frames : Nat} {level : Level} {p : Parser Expr}

/-- What a reader reads from clear words is a phrase of a level, and what is left is clear. -/
def ReadsPhrases (p : Parser Expr) (level : Level) : Prop :=
  ∀ input e rest, IsClear input.words input.ending → p input = .ok e rest →
    ∃ used, input.words = used ++ rest.words ∧ Phrase level used (front rest.words) e ∧
      IsClear rest.words rest.ending

/-- The frames run out over clear words only where so many of them are taken up. -/
def GivesUp (p : Parser Expr) (level : Level) (m : Nat) : Prop :=
  ∀ input, IsClear input.words input.ending → IsCut (p input) → TakesUp level input.words m

/-! ## At the bottom -/

/-- The frames that are enough for a search or a complaint. -/
def bottomFrames : Nat := 10

theorem LexicalFault.frames_le (fault : LexicalFault) : fault.frames ≤ bottomFrames := by
  cases fault <;> simp [frames, bottomFrames]

theorem Kind.frames_le (kind : Kind) : kind.frames ≤ bottomFrames := by
  cases kind <;> decide

theorem framesAhead_le (input : Input) : input.framesAhead ≤ bottomFrames := by
  rw [Input.framesAhead]
  split
  · exact Kind.frames_le _
  · exact LexicalFault.frames_le _
  · exact by decide

theorem complaintFrames_le : complaintFrames ≤ bottomFrames := by
  decide

section Bottom

variable (hroom : bottomFrames ≤ frames)
include hroom

theorem advanceWithin_eq : Parser.advanceWithin frames = Parser.advance := by
  funext input
  have hsearch : searchFrames ≤ bottomFrames := by decide
  have hahead := framesAhead_le input
  rw [advanceWithin_apply, if_neg (by omega), if_neg (by omega)]

theorem refuseWithin_eq (fault : GrammarFault) :
    (Parser.refuseWithin frames fault : Parser α) = Parser.refuse fault :=
  if_neg (Nat.not_lt.mpr (Nat.le_trans complaintFrames_le hroom))

theorem checkEndingWithin_eq : Parser.checkEndingWithin frames = Parser.checkEnding := by
  funext input
  have hcomplaint := Nat.le_trans complaintFrames_le hroom
  rw [checkEndingWithin_apply, if_neg (by omega)]

end Bottom

theorem expectWithin_eq (hroom : bottomFrames < frames) (kind : Kind) :
    Parser.expectWithin frames kind = Parser.expect kind := by
  rw [Parser.expectWithin, advanceWithin_eq (Nat.le_sub_one_of_lt hroom), Parser.expect]
  simp only [refuseWithin_eq (Nat.le_of_lt hroom)]

/-! ## Composition -/

theorem isCut_bind {q : Parser α} {f : α → Parser β} (h : IsCut ((q >>= f) input)) :
    IsCut (q input) ∨ ∃ a rest, q input = .ok a rest ∧ IsCut (f a rest) := by
  cases hresult : q input with
  | ok a rest =>
      rw [bind_of_ok hresult] at h
      exact Or.inr ⟨a, rest, rfl, h⟩
  | error failure rest =>
      rw [bind_of_error hresult] at h
      obtain ⟨_, _, h, hcut⟩ := h
      cases h
      exact Or.inl ⟨failure, rest, rfl, hcut⟩

theorem not_isCut_checkEnding : ¬ IsCut (Parser.checkEnding input) := by
  obtain ⟨words, ending, refusals⟩ := input
  rintro ⟨_, _, h, hcut⟩
  cases words with
  | nil =>
      cases ending with
      | none => cases h
      | some e =>
          cases h
          cases hcut
  | cons w words => cases h

theorem not_isCut_expect (kind : Kind) : ¬ IsCut (Parser.expect kind input) := by
  rw [Parser.expect, peek_bind]
  split
  · exact not_isCut_checkEnding
  · exact not_isCut_refuse _ _

/-- What runs out behind a word does so over the words that follow it, and these are clear. -/
theorem isCut_advance {f : Unit → Parser α} {w : Word} {ws : List Word}
    (hwords : input.words = w :: ws) (h : IsCut ((Parser.advance >>= f) input)) :
    IsClear ws input.ending ∧ IsCut (f () { input with words := ws }) := by
  obtain ⟨words, ending, refusals⟩ := input
  cases hwords
  rcases isClear_or_failed ws ending with hclear | ⟨e, rfl, rfl⟩
  · rw [bind_of_ok (runs_advance hclear refusals)] at h
    exact ⟨hclear, h⟩
  · rw [bind_of_error (runs_advance_failed w e refusals)] at h
    obtain ⟨_, _, h, hcut⟩ := h
    cases h
    cases hcut

theorem Meets.readsPhrases {q : Nat → Parser Expr} {d : Nat} (h : Meets q d level) :
    ReadsPhrases (q d) level := by
  rintro ⟨words, ending, refusals⟩ e rest hclear hread
  obtain ⟨used, left, v, rfl, hsettles, hright⟩ := h words ending hclear
  rw [hsettles.runs refusals] at hread
  cases v with
  | read e' =>
      cases hread
      exact ⟨used, rfl, hright.1, hright.2.2⟩
  | failed failure => cases failure <;> cases hread

theorem ReadsPhrases.of_agreesWith {q : Parser Expr} (h : ReadsPhrases q level)
    (hagrees : AgreesWith q p) : ReadsPhrases p level := by
  intro input e rest hclear hread
  refine h input e rest hclear ?_
  rcases hagrees input with hcut | heq
  · rw [hread] at hcut
    exact absurd hcut not_isCut_ok
  · exact heq.trans hread

/-! ## Chains -/

section Chain

variable {tighter : Level} (htighter : tighter.Tighter level) (hreads : ReadsPhrases p tighter)
  (hdeep : GivesUp p tighter m)
include htighter hreads hdeep

/-- Behind operands that were read nothing is open but what the next operand opens. -/
theorem takesUp_chainFrom {n : Nat} {before : List Word} {left : Expr}
    (hleft : Phrase level before (front input.words) left)
    (h : IsCut (Parser.chainFrom Parser.advance level.op? p n left input)) :
    TakesUp level (before ++ input.words) m := by
  induction n generalizing before left input with
  | zero => exact absurd h not_isCut_ok
  | succ n ih =>
      cases hop : input.words.head?.bind fun w => level.op? w.kind with
      | none =>
          rw [chainFrom_of_none hop] at h
          exact absurd h not_isCut_ok
      | some op =>
          rw [Parser.chainFrom, peek_bind, hop] at h
          obtain ⟨w, hhead, hop⟩ := Option.bind_eq_some_iff.mp hop
          obtain ⟨ws, hwords⟩ := List.head?_eq_some_iff.mp hhead
          have hop' := Level.op?_eq_some_iff.mp hop
          rw [hwords] at hleft ⊢
          obtain ⟨hclear, h⟩ := isCut_advance hwords h
          rcases isCut_bind h with h | ⟨right, rest, hright, h⟩
          · exact (hdeep _ hclear h).operator hop' htighter hleft
          · obtain ⟨used, hsplit, hphrase, -⟩ := hreads _ _ _ hclear hright
            have htakes := ih (.binary hop' htighter hleft hphrase) h
            change ws = used ++ rest.words at hsplit
            rw [hsplit]
            simpa using htakes

theorem GivesUp.chain (hroom : bottomFrames ≤ frames) :
    GivesUp (Parser.chain (Parser.advanceWithin frames) level.op? p) level m := by
  rw [advanceWithin_eq hroom]
  intro input hclear h
  rcases isCut_bind h with h | ⟨left, rest, hleft, h⟩
  · exact (hdeep _ hclear h).lift htighter
  · obtain ⟨used, hsplit, hphrase, -⟩ := hreads _ _ _ hclear hleft
    rw [hsplit]
    exact takesUp_chainFrom htighter hreads hdeep (.lift htighter hphrase) h

end Chain

/-! ## The procedures -/

namespace Procedure

/-- What a procedure reads is a phrase of this level. -/
def phraseLevel : Procedure → Level
  | line => .sum
  | expr => .sum
  | sum => .sum
  | product => .product
  | power => .power
  | unary => .unary
  | term => .term
  | named _ => .term

/-- The frames that a procedure needs although nothing is open. -/
def spareFrames : Procedure → Nat
  | named _ => 10
  | term => 11
  | unary => 12
  | power => 13
  | product => 14
  | sum => 15
  | expr => 16
  | line => 17

/-- The frames of a procedure run out over clear words only where all but the spare ones are taken
up. -/
def RunsOut (frames : Nat) (procedure : Procedure) : Prop :=
  ∀ input, procedure.IsCalledAt input → IsClear input.words input.ending →
    IsCut (procedure.reader frames input) →
      TakesUp procedure.phraseLevel input.words (frames - procedure.spareFrames)

end Procedure

theorem readsPhrases_reader (procedure : Procedure) (frames : Nat)
    (h : Meets (fun d => procedure.unframed d) frames level) :
    ReadsPhrases (procedure.reader frames) level :=
  h.readsPhrases.of_agreesWith (agreesWith_reader procedure (Nat.le_refl frames))

section Calls

variable (hall : ∀ procedure : Procedure, procedure.RunsOut frames)
include hall

theorem takesUp_argument {f : Word} (hf : f.NamesFunction)
    (hclear : IsClear input.words input.ending)
    (h : IsCut (Procedure.argument (Procedure.reader frames) input)) :
    TakesUp .term (f :: input.words) (frames - 9) := by
  rw [Procedure.argument, peek_bind] at h
  cases hcloser : input.words.head?.bind fun w => w.kind.closer? with
  | some closer =>
      rw [hcloser] at h
      obtain ⟨l, hhead, hl⟩ := Option.bind_eq_some_iff.mp hcloser
      obtain ⟨ws, hwords⟩ := List.head?_eq_some_iff.mp hhead
      have hgroup := hall .term input trivial hclear h
      rw [hwords] at hgroup ⊢
      exact (hgroup.groupCall hf (closer?_eq_some_iff.mp hl)).mono
        (by simp only [openFrames, Procedure.spareFrames]; omega)
  | none =>
      rw [hcloser] at h
      have hpower := hall .power input trivial hclear h
      refine (hpower.bareCall hf ?_).mono (by simp only [openFrames, Procedure.spareFrames]; omega)
      intro l r hbrackets hfront
      obtain ⟨w, hhead, rfl⟩ := Option.map_eq_some_iff.mp hfront
      rw [hhead, Option.bind_some, closer?_eq_some_iff.mpr hbrackets] at hcloser
      cases hcloser

section

variable (hroom : bottomFrames ≤ frames)
include hroom

theorem takesUp_power (hclear : IsClear input.words input.ending)
    (h : IsCut (Procedure.power.reader (frames + 1) input)) :
    TakesUp .power input.words (frames - 12) :=
  GivesUp.chain .unary (readsPhrases_reader .unary frames (meets_operand frames))
    (fun input => hall .unary input trivial) hroom input hclear h

theorem takesUp_product (hclear : IsClear input.words input.ending)
    (h : IsCut (Procedure.product.reader (frames + 1) input)) :
    TakesUp .product input.words (frames - 13) :=
  GivesUp.chain .power (readsPhrases_reader .power frames (meets_power (meets_operand frames)))
    (fun input => hall .power input trivial) hroom input hclear h

theorem takesUp_sum (hclear : IsClear input.words input.ending)
    (h : IsCut (Procedure.sum.reader (frames + 1) input)) :
    TakesUp .sum input.words (frames - 14) :=
  GivesUp.chain .product (readsPhrases_reader .product frames (meets_product (meets_operand frames)))
    (fun input => hall .product input trivial) hroom input hclear h

theorem takesUp_expr (hclear : IsClear input.words input.ending)
    (h : IsCut (Procedure.expr.reader (frames + 1) input)) :
    TakesUp .sum input.words (frames - 15) := by
  rw [Procedure.reader, checkEndingWithin_eq hroom, bind_of_ok (runs_checkEnding hclear _)] at h
  exact hall .sum input trivial hclear h

theorem takesUp_line (hclear : IsClear input.words input.ending)
    (h : IsCut (Procedure.line.reader (frames + 1) input)) :
    TakesUp .sum input.words (frames - 16) := by
  rcases isCut_bind h with h | ⟨e, rest, -, h⟩
  · exact hall .expr input trivial hclear h
  · rw [peek_bind] at h
    cases hwords : rest.words.head? with
    | none =>
        rw [hwords] at h
        exact absurd h not_isCut_ok
    | some w =>
        rw [hwords] at h
        dsimp only at h
        rw [refuseWithin_eq hroom] at h
        exact absurd h (not_isCut_refuse _ _)

theorem takesUp_unary (hclear : IsClear input.words input.ending)
    (h : IsCut (Procedure.unary.reader (frames + 1) input)) :
    TakesUp .unary input.words (frames - 11) := by
  rw [Procedure.reader, peek_bind] at h
  split at h
  · rename_i hminus
    obtain ⟨w, hhead, hw⟩ := Option.map_eq_some_iff.mp hminus
    obtain ⟨ws, hwords⟩ := List.head?_eq_some_iff.mp hhead
    rw [advanceWithin_eq hroom] at h
    obtain ⟨hclear, h⟩ := isCut_advance hwords h
    rw [hwords]
    rcases isCut_bind h with h | ⟨_, _, -, h⟩
    · have hinside : TakesUp .unary ws (frames - 12) := hall .unary _ trivial hclear h
      exact (hinside.negation hw).mono (by simp only [openFrames]; omega)
    · exact absurd h not_isCut_ok
  · exact (hall .term input trivial hclear h).lift .term

theorem takesUp_named {w : Word} {ws : List Word} (hwords : input.words = w :: ws)
    (hw : w.kind = .name) (h : IsCut ((Procedure.named w.name).reader (frames + 1) input)) :
    TakesUp .term (w :: ws) (frames - 9) := by
  rw [Procedure.reader] at h
  cases hlookup : Names.lookup w.name with
  | none =>
      rw [hlookup, refuseWithin_eq hroom] at h
      exact absurd h (not_isCut_refuse _ _)
  | some entry =>
      rw [hlookup] at h
      cases entry with
      | constant value description =>
          dsimp only at h
          rw [advanceWithin_eq hroom] at h
          exact absurd (isCut_advance hwords h).2 not_isCut_ok
      | function fn description =>
          dsimp only at h
          rw [advanceWithin_eq hroom] at h
          obtain ⟨hclear, h⟩ := isCut_advance hwords h
          rcases isCut_bind h with h | ⟨_, _, -, h⟩
          · exact takesUp_argument hall ⟨hw, fn, description, hlookup⟩ hclear h
          · exact absurd h not_isCut_ok

end

/-- Inside brackets the frames run out in the sum. -/
theorem takesUp_bracketed {w : Word} {closer : Kind} {ws : List Word}
    (hroom : bottomFrames < frames) (hwords : input.words = w :: ws)
    (hbrackets : Brackets w.kind closer)
    (h : IsCut (Procedure.bracketed frames (Procedure.expr.reader frames) closer input)) :
    TakesUp .term (w :: ws) (frames - 10) := by
  rw [Procedure.bracketed, advanceWithin_eq (Nat.le_of_lt hroom), expectWithin_eq hroom] at h
  obtain ⟨hclear, h⟩ := isCut_advance hwords h
  rcases isCut_bind h with h | ⟨e, rest, -, h⟩
  · have hinside : TakesUp .sum ws (frames - 16) := hall .expr _ trivial hclear h
    exact (hinside.group hbrackets).mono (by simp only [openFrames]; omega)
  · rcases isCut_bind h with h | ⟨_, _, -, h⟩
    · exact absurd h (not_isCut_expect closer)
    · exact absurd h not_isCut_ok

theorem takesUp_term (hroom : bottomFrames < frames) (hclear : IsClear input.words input.ending)
    (h : IsCut (Procedure.term.reader (frames + 1) input)) :
    TakesUp .term input.words (frames - 10) := by
  have hroom' := Nat.le_of_lt hroom
  rw [Procedure.reader, peek_bind] at h
  cases hwords : input.words with
  | nil =>
      rw [hwords] at h
      dsimp only [List.head?_nil] at h
      rw [refuseWithin_eq hroom'] at h
      exact absurd h (not_isCut_refuse _ _)
  | cons w ws =>
      have hrefused : ¬ IsCut
          ((Parser.refuseWithin frames (.unexpected (some w)) : Parser Expr) input) := by
        rw [refuseWithin_eq hroom']
        exact not_isCut_refuse _ _
      rw [hwords] at h
      dsimp only [List.head?_cons] at h
      cases hw : w.kind with
      | number =>
          rw [hw, advanceWithin_eq hroom'] at h
          exact absurd (isCut_advance hwords h).2 not_isCut_ok
      | name =>
          rw [hw] at h
          have hnamed := hall (.named w.name) input ⟨w, by rw [hwords]; rfl, hw, rfl⟩ hclear h
          rwa [hwords] at hnamed
      | lparen =>
          rw [hw] at h
          exact takesUp_bracketed hall hroom hwords (hw ▸ .round) h
      | lbracket =>
          rw [hw] at h
          exact takesUp_bracketed hall hroom hwords (hw ▸ .square) h
      | _ =>
          rw [hw] at h
          exact absurd h hrefused

end Calls

/-- The frames of a procedure run out over clear words only where enough is open. -/
theorem runsOut_reader (frames : Nat) (procedure : Procedure) : procedure.RunsOut frames := by
  induction frames generalizing procedure with
  | zero =>
      intro input _ _ _
      rw [Nat.zero_sub]
      exact .zero _ _
  | succ frames ih =>
      intro input hcalled hclear h
      by_cases hfew : frames + 1 ≤ procedure.spareFrames
      · rw [Nat.sub_eq_zero_of_le hfew]
        exact .zero _ _
      · have hroom : bottomFrames ≤ frames := by
          cases procedure <;> simp only [Procedure.spareFrames, bottomFrames] at hfew ⊢ <;> omega
        cases procedure with
        | line => exact (takesUp_line ih hroom hclear h).mono (by simp [Procedure.spareFrames])
        | expr => exact (takesUp_expr ih hroom hclear h).mono (by simp [Procedure.spareFrames])
        | sum => exact (takesUp_sum ih hroom hclear h).mono (by simp [Procedure.spareFrames])
        | product => exact (takesUp_product ih hroom hclear h).mono (by simp [Procedure.spareFrames])
        | power => exact (takesUp_power ih hroom hclear h).mono (by simp [Procedure.spareFrames])
        | unary => exact (takesUp_unary ih hroom hclear h).mono (by simp [Procedure.spareFrames])
        | term =>
            have hroom' : bottomFrames < frames := Nat.lt_of_succ_lt_succ (Nat.not_le.mp hfew)
            exact (takesUp_term ih hroom' hclear h).mono (by simp [Procedure.spareFrames])
        | named name =>
            obtain ⟨w, hhead, hw, rfl⟩ := hcalled
            obtain ⟨ws, hwords⟩ := List.head?_eq_some_iff.mp hhead
            rw [hwords]
            exact (takesUp_named ih hroom hwords hw h).mono (by simp [Procedure.spareFrames])

end LineCalculator
