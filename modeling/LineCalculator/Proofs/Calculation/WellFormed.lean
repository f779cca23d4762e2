import LineCalculator.Proofs.Reader.Rereading

/-!
# Trees that have a value

A tree is well formed when it holds only numbers without sign, constants and functions as the table
of names has them, and operators of the language.  Nothing in such a tree is unknown to evaluation,
which looks names up again.  So it has a value exactly when it has no more levels than evaluation
goes into.  Every tree that is read is well formed.
-/

namespace LineCalculator

open Binary64

/-! ## Well-formed trees -/

/-- A number without sign, zero and infinity included. -/
structure IsUnsigned (x : Float) : Prop where
  nonneg : 0 ≤ x
  isSigned_eq : isSigned x = false
  isNaN_eq : x.isNaN = false

/-- The binary operators of the language. -/
def BinaryOp.known : List BinaryOp :=
  [add, sub, mul, div, pow]

/-- A tree that holds only unsigned numbers, names as the table has them, and known operators. -/
def Expr.IsWellFormed : Expr → Prop
  | number x => IsUnsigned x
  | constant name value => ∃ description, Names.lookup name = some (.constant value description)
  | binary op l r => op ∈ BinaryOp.known ∧ l.IsWellFormed ∧ r.IsWellFormed
  | unary op e => op = .neg ∧ e.IsWellFormed
  | call name arg =>
    (∃ fn description, Names.lookup name = some (.function fn description)) ∧ arg.IsWellFormed
  | foreign _ => False

theorem isUnsigned_ofCode {code : Nat} (h : code ≤ infinity) : IsUnsigned (ofCode code) := by
  have hzero : (0 : Float) = ofCode 0 := by decide +kernel
  refine ⟨?_, isSigned_ofCode h, isNaN_ofCode h⟩
  rw [hzero]
  exact (ofCode_le_iff (Nat.zero_le _) h).mpr (Nat.zero_le _)

theorem Operator.mem_known {level : Level} {kind : Kind} {op : BinaryOp}
    (h : Operator level kind op) : op ∈ BinaryOp.known := by
  cases h <;> decide

theorem IsReadable.isWellFormed {e : Expr} (h : IsReadable e) : e.IsWellFormed := by
  induction h with
  | number hcode => exact isUnsigned_ofCode hcode
  | constant hname => exact ⟨_, hname⟩
  | binary hop _ _ ihl ihr => exact ⟨hop.mem_known, ihl, ihr⟩
  | negation _ ih => exact ⟨rfl, ih⟩
  | call hname _ ih => exact ⟨⟨_, _, hname⟩, ih⟩

/-! ## Evaluation -/

theorem BinaryOp.exists_apply {op : BinaryOp} (h : op ∈ BinaryOp.known) (x y : Float) :
    ∃ z, op.apply x y = .ok z := by
  cases op with
  | unknown symbol => simp [known] at h
  | _ => exact ⟨_, rfl⟩

namespace Expr

/-- Evaluation with a limit on the levels gives a value if the tree is within the limit, and else
fails for its depth. -/
def EvaluatesWithin (n : Nat) (e : Expr) : Prop :=
  (e.fits n = true ∧ ∃ x, e.evalWithin n = .ok x) ∨
    (e.fits n = false ∧ e.evalWithin n = .error .tooDeep)

variable {n : Nat} {l r e : Expr}

theorem EvaluatesWithin.binary {op : BinaryOp} (hop : op ∈ BinaryOp.known)
    (hl : EvaluatesWithin n l) (hr : EvaluatesWithin n r) :
    EvaluatesWithin (n + 1) (.binary op l r) := by
  rcases hl with ⟨hfits, x, hx⟩ | ⟨hfits, hdeep⟩
  · rcases hr with ⟨hfits', y, hy⟩ | ⟨hfits', hdeep⟩
    · obtain ⟨z, hz⟩ := BinaryOp.exists_apply hop x y
      refine Or.inl ⟨by simp [fits, hfits, hfits'], z, ?_⟩
      rw [evalWithin, hx, hy]
      exact hz
    · refine Or.inr ⟨by simp [fits, hfits'], ?_⟩
      rw [evalWithin, hx, hdeep]
      rfl
  · refine Or.inr ⟨by simp [fits, hfits], ?_⟩
    rw [evalWithin, hdeep]
    rfl

theorem EvaluatesWithin.negation (h : EvaluatesWithin n e) :
    EvaluatesWithin (n + 1) (.unary .neg e) := by
  rcases h with ⟨hfits, x, hx⟩ | ⟨hfits, hdeep⟩
  · refine Or.inl ⟨hfits, -x, ?_⟩
    rw [evalWithin, hx]
    rfl
  · refine Or.inr ⟨hfits, ?_⟩
    rw [evalWithin, hdeep]
    rfl

theorem EvaluatesWithin.call {name : String} {fn : Function} {description : String}
    (hname : Names.lookup name = some (.function fn description)) (h : EvaluatesWithin n e) :
    EvaluatesWithin (n + 1) (.call name e) := by
  have hfn : Names.function? name = some fn := by
    rw [Names.function?, hname]
  rcases h with ⟨hfits, x, hx⟩ | ⟨hfits, hdeep⟩
  · refine Or.inl ⟨hfits, fn.apply x, ?_⟩
    simp only [evalWithin, hfn, hx]
    rfl
  · refine Or.inr ⟨hfits, ?_⟩
    simp only [evalWithin, hfn, hdeep]
    rfl

/-- The only thing that can keep a well-formed tree from having a value is its depth. -/
theorem IsWellFormed.evaluatesWithin (h : e.IsWellFormed) (n : Nat) : EvaluatesWithin n e := by
  induction e generalizing n with
  | foreign kind => exact absurd h id
  | number x =>
      cases n with
      | zero => exact Or.inr ⟨rfl, rfl⟩
      | succ n => exact Or.inl ⟨rfl, x, rfl⟩
  | constant name value =>
      cases n with
      | zero => exact Or.inr ⟨rfl, rfl⟩
      | succ n => exact Or.inl ⟨rfl, value, rfl⟩
  | binary op l r ihl ihr =>
      obtain ⟨hop, hl, hr⟩ := h
      cases n with
      | zero => exact Or.inr ⟨rfl, rfl⟩
      | succ n => exact .binary hop (ihl hl n) (ihr hr n)
  | unary op e ih =>
      obtain ⟨rfl, he⟩ := h
      cases n with
      | zero => exact Or.inr ⟨rfl, rfl⟩
      | succ n => exact .negation (ih he n)
  | call name arg ih =>
      obtain ⟨⟨fn, description, hname⟩, harg⟩ := h
      cases n with
      | zero => exact Or.inr ⟨rfl, rfl⟩
      | succ n => exact .call hname (ih harg n)

theorem IsWellFormed.eval_ne_unknown [Limits] (h : e.IsWellFormed) (error : EvalError) :
    e.eval ≠ .error (.unknown error) := by
  intro heval
  rw [eval] at heval
  rcases h.evaluatesWithin Limits.valueLevels with ⟨-, x, hx⟩ | ⟨-, hdeep⟩
  · cases hx.symm.trans heval
  · cases hdeep.symm.trans heval

theorem IsWellFormed.exists_eval_iff [Limits] (h : e.IsWellFormed) :
    (∃ x, e.eval = .ok x) ↔ e.fits Limits.valueLevels = true := by
  rcases h.evaluatesWithin Limits.valueLevels with ⟨hfits, hvalue⟩ | ⟨hfits, hdeep⟩
  · exact ⟨fun _ => hfits, fun _ => hvalue⟩
  · rw [eval, hdeep, hfits]
    simp

theorem IsWellFormed.exists_eval [Limits] (h : e.IsWellFormed) (hdeep : e.eval ≠ .error .tooDeep) :
    ∃ x, e.eval = .ok x := by
  rcases h.evaluatesWithin Limits.valueLevels with ⟨-, hvalue⟩ | ⟨-, hfailed⟩
  · exact hvalue
  · exact absurd hfailed hdeep

theorem IsWellFormed.error_eq_tooDeep [Limits] (h : e.IsWellFormed) {error : ExprError}
    (herror : e.eval.mapError ExprError.ofEval = .error error) : error = .tooDeep := by
  rcases h.evaluatesWithin Limits.valueLevels with ⟨-, x, hx⟩ | ⟨-, hdeep⟩
  · rw [eval, hx] at herror
    cases herror
  · rw [eval, hdeep] at herror
    cases herror
    rfl

end Expr

/-! ## Trees that are read -/

theorem isWellFormed_of_readLine [Limits] {source : List Char} {t : Expr}
    (h : (readLine source).result = .ok t) : t.IsWellFormed :=
  (isReadable_of_readLine h).isWellFormed

/-- A tree that is read holds only unsigned numbers, names as the table has them, and known
operators.  Evaluating it never fails on something unknown: unless it is too deep it has a value,
and it has one exactly if it has no more levels than the limit. -/
theorem readLine_evaluable [Limits] {source : List Char} {t : Expr}
    (h : (readLine source).result = .ok t) :
    t.IsWellFormed ∧ (∀ error, t.eval ≠ .error (.unknown error)) ∧
      (t.eval ≠ .error .tooDeep → ∃ x, t.eval = .ok x) ∧
      ((∃ x, t.eval = .ok x) ↔ t.fits Limits.valueLevels = true) := by
  have hwell := isWellFormed_of_readLine h
  exact ⟨hwell, hwell.eval_ne_unknown, hwell.exists_eval, hwell.exists_eval_iff⟩

/-- A tree with every sort of node in it. -/
theorem readLine_evaluable_negation :
    (Expr.unary .neg (.call "lb" (.binary .pow (.constant "e" Names.e) (.number 0)))).IsWellFormed ∧
      ∃ x, (Expr.unary .neg
        (.call "lb" (.binary .pow (.constant "e" Names.e) (.number 0)))).eval = .ok x := by
  have hread : (readLine ['-', 'l', 'b', ' ', 'e', '^', '.']).result =
      .ok (.unary .neg (.call "lb" (.binary .pow (.constant "e" Names.e) (.number 0)))) := by
    decide +kernel
  obtain ⟨hwell, -, -, hvalue⟩ := readLine_evaluable hread
  exact ⟨hwell, hvalue.mpr (by decide)⟩

end LineCalculator
