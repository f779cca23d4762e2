import LineCalculator.Proofs.Reader.Levels
import LineCalculator.Proofs.Reader.Rounds

/-!
# Procedures and readers without frames

As long as its frames do not run out, a procedure does what the reader without frames does that may
go down as many levels as the procedure has frames: every level takes a frame at least.
-/

namespace LineCalculator

variable {α β : Type} {input : Input} {d frames : Nat} {p q : Parser Expr}

/-- The frames have run out. -/
def IsCut (result : EStateM.Result ReadFailure Input α) : Prop :=
  ∃ failure rest, result = .error failure rest ∧ failure.isCut = true

theorem not_isCut_ok {a : α} {rest : Input} :
    ¬ IsCut (.ok a rest : EStateM.Result ReadFailure Input α) := by
  rintro ⟨failure, rest, hresult, hcut⟩
  cases hresult

theorem not_isCut_refuse (fault : GrammarFault) (input : Input) :
    ¬ IsCut ((Parser.refuse fault : Parser α) input) := by
  rintro ⟨failure, rest, hresult, hcut⟩
  cases hresult
  cases hcut

/-- A reader does what another does as long as the frames of the other do not run out. -/
def AgreesWith (q p : Parser α) : Prop :=
  ∀ input, IsCut (p input) ∨ q input = p input

/-! ## Composition -/

theorem AgreesWith.refl (p : Parser α) : AgreesWith p p :=
  fun _ => Or.inr rfl

theorem AgreesWith.bind {q p : Parser α} {g f : α → Parser β} (h : AgreesWith q p)
    (hf : ∀ a, AgreesWith (g a) (f a)) : AgreesWith (q >>= g) (p >>= f) := by
  intro input
  rcases h input with ⟨failure, rest, hcut, hfailure⟩ | heq
  · exact Or.inl ⟨failure, rest, bind_of_error hcut, hfailure⟩
  · cases hresult : p input with
    | ok a rest =>
        rw [bind_of_ok hresult, bind_of_ok (heq.trans hresult)]
        exact hf a rest
    | error failure rest =>
        rw [bind_of_error hresult, bind_of_error (heq.trans hresult)]
        exact Or.inr rfl

theorem agreesWith_tooDeep (q : Parser α) : AgreesWith q (throw .tooDeep) :=
  fun input => Or.inl ⟨.tooDeep, input, rfl, rfl⟩

theorem agreesWith_refuse (frames : Nat) (fault : GrammarFault) :
    AgreesWith (Parser.refuse fault : Parser α) (Parser.refuseWithin frames fault) := by
  intro input
  rw [refuseWithin_apply]
  split
  · exact Or.inl ⟨_, _, rfl, rfl⟩
  · exact Or.inr rfl

theorem agreesWith_checkEnding (frames : Nat) :
    AgreesWith Parser.checkEnding (Parser.checkEndingWithin frames) := by
  intro input
  rw [checkEndingWithin_apply]
  split
  · exact Or.inl ⟨_, _, rfl, rfl⟩
  · exact Or.inr rfl

theorem agreesWith_advance (frames : Nat) :
    AgreesWith Parser.advance (Parser.advanceWithin frames) := by
  intro input
  rw [advanceWithin_apply]
  split
  · exact Or.inl ⟨_, _, rfl, rfl⟩
  · split
    · exact Or.inl ⟨_, _, rfl, rfl⟩
    · exact Or.inr rfl

theorem agreesWith_expect (frames : Nat) (kind : Kind) :
    AgreesWith (Parser.expect kind) (Parser.expectWithin frames kind) := by
  refine AgreesWith.bind (.refl _) fun found => ?_
  split
  · exact agreesWith_advance _
  · exact agreesWith_refuse _ _

theorem AgreesWith.chainFrom (h : AgreesWith q p) (frames : Nat) (op? : Kind → Option BinaryOp)
    (n : Nat) (left : Expr) :
    AgreesWith (Parser.chainFrom Parser.advance op? q n left)
      (Parser.chainFrom (Parser.advanceWithin frames) op? p n left) := by
  induction n generalizing left with
  | zero => exact .refl _
  | succ n ih =>
      refine AgreesWith.bind (.refl _) fun found => ?_
      cases found.bind fun w => op? w.kind with
      | none => exact .refl _
      | some op => exact (agreesWith_advance frames).bind fun _ => h.bind fun right => ih _

theorem AgreesWith.chain (h : AgreesWith q p) (frames : Nat) (op? : Kind → Option BinaryOp) :
    AgreesWith (Parser.chain Parser.advance op? q)
      (Parser.chain (Parser.advanceWithin frames) op? p) :=
  h.bind fun left =>
    AgreesWith.bind (.refl _) fun input => h.chainFrom frames op? input.words.length left

theorem AgreesWith.bracketed (h : AgreesWith (Parser.expr q) p) (frames : Nat) (closer : Kind) :
    AgreesWith (Parser.group q closer) (Procedure.bracketed frames p closer) :=
  (agreesWith_advance frames).bind fun _ => h.bind fun _ =>
    (agreesWith_expect frames closer).bind fun _ => .refl _

/-! ## The procedures -/

/-- The reader without frames that a procedure agrees with. -/
def Procedure.unframed (d : Nat) : Procedure → Parser Expr
  | line => Parser.line (Parser.operand d)
  | expr => Parser.expr (Parser.operand d)
  | sum => Parser.sum (Parser.operand d)
  | product => Parser.product (Parser.operand d)
  | power => Parser.power (Parser.operand d)
  | unary => Parser.operand d
  | term => Parser.term (Parser.operand d)
  | named name => Parser.named (Parser.operand d) name

/-- In front of a bracket a term is a group. -/
theorem term_of_closer {w : Word} {closer : Kind} (hhead : input.words.head? = some w)
    (hw : w.kind.closer? = some closer) : Parser.term p input = Parser.group p closer input := by
  rw [Parser.term, peek_bind, hhead]
  obtain ⟨kind, text, value⟩ := w
  cases kind <;> cases hw <;> rfl

theorem agreesWith_argument (readers : Procedure → Parser Expr)
    (hterm : AgreesWith (Parser.term q) (readers .term))
    (hpower : AgreesWith (Parser.power q) (readers .power)) :
    AgreesWith (Parser.argument q) (Procedure.argument readers) := by
  intro input
  rw [Parser.argument, Procedure.argument, peek_bind, peek_bind]
  cases hcloser : input.words.head?.bind fun w => w.kind.closer? with
  | none => exact hpower input
  | some closer =>
      obtain ⟨w, hhead, hw⟩ := Option.bind_eq_some_iff.mp hcloser
      have hgroup := hterm input
      rwa [term_of_closer hhead hw] at hgroup

/-- A procedure does what its reader without frames does, as long as its frames do not run out. -/
theorem agreesWith_reader (procedure : Procedure) (hd : frames ≤ d) :
    AgreesWith (procedure.unframed d) (procedure.reader frames) := by
  induction frames generalizing procedure d with
  | zero => exact agreesWith_tooDeep _
  | succ frames ih =>
      have hle : frames ≤ d := Nat.le_of_succ_le hd
      cases procedure with
      | line =>
          refine (ih .expr hle).bind fun e => AgreesWith.bind (.refl _) fun found => ?_
          cases found with
          | none => exact .refl _
          | some w => exact agreesWith_refuse _ _
      | expr => exact (agreesWith_checkEnding frames).bind fun _ => ih .sum hle
      | sum => exact (ih .product hle).chain frames Parser.sumOp?
      | product => exact (ih .power hle).chain frames Parser.productOp?
      | power => exact (ih .unary hle).chain frames Parser.powerOp?
      | unary =>
          obtain ⟨d, rfl⟩ : ∃ k, d = k + 1 := ⟨d - 1, by omega⟩
          have hle : frames ≤ d := Nat.le_of_succ_le_succ hd
          refine AgreesWith.bind (.refl _) fun found => ?_
          split
          · exact (agreesWith_advance frames).bind fun _ => (ih .unary hle).bind fun _ => .refl _
          · exact ih .term hle
      | term =>
          refine AgreesWith.bind (.refl _) fun found => ?_
          cases found with
          | none => exact agreesWith_refuse _ _
          | some w =>
              have hgroup := AgreesWith.bracketed (ih .expr hle) frames
              dsimp only
              cases w.kind with
              | number => exact (agreesWith_advance frames).bind fun _ => .refl _
              | name => exact ih (.named w.name) hle
              | lparen => exact hgroup .rparen
              | lbracket => exact hgroup .rbracket
              | _ => exact agreesWith_refuse _ _
      | named name =>
          rw [Procedure.unframed, Procedure.reader, Parser.named]
          cases Names.lookup name with
          | none => exact agreesWith_refuse _ _
          | some entry =>
              cases entry with
              | constant value description =>
                  exact (agreesWith_advance frames).bind fun _ => .refl _
              | function fn description =>
                  exact (agreesWith_advance frames).bind fun _ =>
                    (agreesWith_argument _ (ih .term hle) (ih .power hle)).bind fun _ => .refl _

end LineCalculator
