import Mathlib.Data.List.Basic
import LineCalculator.Expr.Evaluate

/-!
# The first unknown node of a tree

Evaluation asks about one node of a tree after the other: about a call before it goes into the
argument, and about an operator when it has the operands.  The first node that it does not know ends
it, with a message about this node.  So what a tree evaluates to is told by the list of its nodes in
this order, as long as the tree is not too deep.
-/

namespace LineCalculator

/-- The functions are those of the table of names, which has no name twice. -/
theorem Names.function?_eq_some_iff {name : String} {fn : Function} :
    function? name = some fn ↔ ∃ description, (name, .function fn description) ∈ table := by
  constructor
  · intro h
    rw [function?] at h
    split at h
    · rename_i hlookup
      cases h
      exact ⟨_, mem_table_of_lookup hlookup⟩
    · cases h
  · rintro ⟨description, hmem⟩
    simp only [table, List.mem_cons, List.not_mem_nil, or_false, Prod.mk.injEq, reduceCtorEq,
      and_false, false_or, Entry.function.injEq] at hmem
    rcases hmem with ⟨rfl, rfl, -⟩ | ⟨rfl, rfl, -⟩ | ⟨rfl, rfl, -⟩ | ⟨rfl, rfl, -⟩ |
      ⟨rfl, rfl, -⟩ | ⟨rfl, rfl, -⟩ | ⟨rfl, rfl, -⟩ | ⟨rfl, rfl, -⟩ | ⟨rfl, rfl, -⟩ |
      ⟨rfl, rfl, -⟩ <;> decide

namespace Expr

/-! ## Nodes in the order of evaluation -/

/-- The subtrees of a tree in the order in which evaluation asks about their roots. -/
def nodes : Expr → List Expr
  | binary op left right => left.nodes ++ (right.nodes ++ [binary op left right])
  | unary op operand => operand.nodes ++ [unary op operand]
  | call name arg => call name arg :: arg.nodes
  | e => [e]

/-- The root of a tree is nothing that the language knows, as the message says. -/
inductive IsUnknown (message : String) : Expr → Prop
  | binary {symbol : String} {left right : Expr}
      (hmessage : message = "Unknown binary op: " ++ symbol) :
      IsUnknown message (.binary (.unknown symbol) left right)
  | unary {symbol : String} {operand : Expr}
      (hmessage : message = "Unknown unary op: " ++ symbol) :
      IsUnknown message (.unary (.unknown symbol) operand)
  | call {name : String} {arg : Expr}
      (hname : ∀ fn description, (name, .function fn description) ∉ Names.table)
      (hmessage : message = "Unknown function: " ++ name) :
      IsUnknown message (.call name arg)
  | foreign {kind : Foreign}
      (hmessage : message = "Unknown expression type: " ++ kind.typeName) :
      IsUnknown message (.foreign kind)

/-- The root of a tree is something that the language knows. -/
def IsKnown (e : Expr) : Prop :=
  ∀ message, ¬ e.IsUnknown message

/-- Evaluation comes to a node that the message is about, since all nodes before it are known. -/
def FirstUnknown (message : String) (nodes : List Expr) : Prop :=
  ∃ before node after, nodes = before ++ node :: after ∧ (∀ e ∈ before, e.IsKnown) ∧
    node.IsUnknown message

variable {message message' : String} {e : Expr} {nodes others : List Expr}
  {result : Except EvalFailure Float}

theorem IsUnknown.message_eq (h : e.IsUnknown message) (h' : e.IsUnknown message') :
    message = message' := by
  cases h with
  | binary hmessage => cases h' with | binary hmessage' => rw [hmessage, hmessage']
  | unary hmessage => cases h' with | unary hmessage' => rw [hmessage, hmessage']
  | call _ hmessage => cases h' with | call _ hmessage' => rw [hmessage, hmessage']
  | foreign hmessage => cases h' with | foreign hmessage' => rw [hmessage, hmessage']

/-- A list has at most one first unknown node. -/
theorem FirstUnknown.unique (h : FirstUnknown message nodes) (h' : FirstUnknown message' nodes) :
    message = message' := by
  obtain ⟨before, node, after, rfl, hbefore, hnode⟩ := h
  obtain ⟨before', node', after', hsplit, hbefore', hnode'⟩ := h'
  rcases List.append_eq_append_iff.mp hsplit with ⟨between, rfl, hrest⟩ | ⟨between, rfl, hrest⟩
  · cases between with
    | nil =>
        cases hrest
        exact hnode.message_eq hnode'
    | cons e between =>
        cases hrest
        exact absurd hnode (hbefore' node (by simp) message)
  · cases between with
    | nil =>
        cases hrest
        exact hnode.message_eq hnode'
    | cons e between =>
        cases hrest
        exact absurd hnode' (hbefore node' (by simp) message')

theorem FirstUnknown.exists_isUnknown (h : FirstUnknown message nodes) :
    ∃ node ∈ nodes, node.IsUnknown message := by
  obtain ⟨before, node, after, rfl, -, hnode⟩ := h
  exact ⟨node, by simp, hnode⟩

theorem FirstUnknown.append (h : FirstUnknown message nodes) (others : List Expr) :
    FirstUnknown message (nodes ++ others) := by
  obtain ⟨before, node, after, rfl, hbefore, hnode⟩ := h
  exact ⟨before, node, after ++ others, by simp, hbefore, hnode⟩

theorem FirstUnknown.after (h : FirstUnknown message others) (hnodes : ∀ e ∈ nodes, e.IsKnown) :
    FirstUnknown message (nodes ++ others) := by
  obtain ⟨before, node, after, rfl, hbefore, hnode⟩ := h
  refine ⟨nodes ++ before, node, after, by simp, ?_, hnode⟩
  intro e he
  exact (List.mem_append.mp he).elim (hnodes e) (hbefore e)

theorem firstUnknown_cons (h : e.IsUnknown message) (others : List Expr) :
    FirstUnknown message (e :: others) :=
  ⟨[], e, others, rfl, by simp, h⟩

/-! ## What a result tells of the nodes -/

/-- A value tells that all nodes are known, and an error about an unknown one that it is the first.
An error of depth tells nothing. -/
def Tells (nodes : List Expr) : Except EvalFailure Float → Prop
  | .ok _ => ∀ e ∈ nodes, e.IsKnown
  | .error (.unknown error) => FirstUnknown error.message nodes
  | .error .tooDeep => True

theorem Tells.after (h : Tells others result) (hnodes : ∀ e ∈ nodes, e.IsKnown) :
    Tells (nodes ++ others) result := by
  cases result with
  | ok x => exact fun e he => (List.mem_append.mp he).elim (hnodes e) (h e)
  | error failure =>
      cases failure with
      | unknown error => exact FirstUnknown.after h hnodes
      | tooDeep => trivial

/-- What comes next asks about the nodes behind. -/
theorem Tells.bind {f : Float → Except EvalFailure Float} (h : Tells nodes result)
    (hf : ∀ x, Tells others (f x)) : Tells (nodes ++ others) (result >>= f) := by
  cases result with
  | ok x => exact (hf x).after h
  | error failure =>
      cases failure with
      | unknown error => exact FirstUnknown.append h others
      | tooDeep => trivial

theorem tells_of_isKnown (h : e.IsKnown) (x : Float) : Tells [e] (.ok x) :=
  List.forall_mem_singleton.mpr h

theorem tells_binary (op : BinaryOp) (left right : Expr) (x y : Float) :
    Tells [binary op left right] (op.apply x y) := by
  cases op with
  | unknown symbol => exact firstUnknown_cons (.binary rfl) []
  | _ => exact tells_of_isKnown (by rintro message ⟨⟩) _

theorem tells_unary (op : UnaryOp) (operand : Expr) (x : Float) :
    Tells [unary op operand] (op.apply x) := by
  cases op with
  | unknown symbol => exact firstUnknown_cons (.unary rfl) []
  | neg => exact tells_of_isKnown (by rintro message ⟨⟩) _

/-- A call is asked about before its argument, if it is a call of a function at all. -/
theorem tells_call {name : String} {arg : Expr} {n : Nat}
    (harg : Tells arg.nodes (arg.evalWithin n)) :
    Tells (call name arg).nodes ((call name arg).evalWithin (n + 1)) := by
  rw [evalWithin]
  cases hfn : Names.function? name with
  | none =>
      refine firstUnknown_cons (.call ?_ rfl) arg.nodes
      intro fn description hmem
      cases hfn.symm.trans (Names.function?_eq_some_iff.mpr ⟨description, hmem⟩)
  | some fn =>
      obtain ⟨description, hmem⟩ := Names.function?_eq_some_iff.mp hfn
      have hknown : (call name arg).IsKnown := by
        intro message hunknown
        cases hunknown with
        | call hname => exact hname fn description hmem
      have hvalue : Tells (arg.nodes ++ []) (arg.evalWithin n >>= fun x => .ok (fn.apply x)) :=
        harg.bind fun x => List.forall_mem_nil _
      rw [List.append_nil] at hvalue
      exact hvalue.after (List.forall_mem_singleton.mpr hknown)

/-- The result of evaluation tells of the nodes in their order, whatever the limit on depth is. -/
theorem tells_evalWithin (n : Nat) (e : Expr) : Tells e.nodes (e.evalWithin n) := by
  induction n generalizing e with
  | zero => trivial
  | succ n ih =>
      cases e with
      | number value => exact tells_of_isKnown (by rintro message ⟨⟩) value
      | constant name value => exact tells_of_isKnown (by rintro message ⟨⟩) value
      | binary op left right =>
          exact (ih left).bind fun x => (ih right).bind fun y => tells_binary op left right x y
      | unary op operand => exact (ih operand).bind fun x => tells_unary op operand x
      | call name arg => exact tells_call (ih arg)
      | foreign kind => exact firstUnknown_cons (.foreign rfl) []

/-! ## Trees that are not too deep -/

theorem bind_ne_tooDeep {f : Float → Except EvalFailure Float} (h : result ≠ .error .tooDeep)
    (hf : ∀ x, f x ≠ .error .tooDeep) : result >>= f ≠ .error .tooDeep := by
  cases result with
  | ok x => exact hf x
  | error failure => exact h

theorem evalWithin_ne_tooDeep {n : Nat} (h : e.fits n = true) :
    e.evalWithin n ≠ .error .tooDeep := by
  induction n generalizing e with
  | zero => cases h
  | succ n ih =>
      cases e with
      | number | constant | foreign => simp [evalWithin]
      | binary op left right =>
          obtain ⟨hleft, hright⟩ := Bool.and_eq_true_iff.mp h
          refine bind_ne_tooDeep (ih hleft) fun x => bind_ne_tooDeep (ih hright) fun y => ?_
          cases op <;> simp [BinaryOp.apply]
      | unary op operand =>
          refine bind_ne_tooDeep (ih h) fun x => ?_
          cases op <;> simp [UnaryOp.apply]
      | call name arg =>
          rw [evalWithin]
          cases Names.function? name with
          | none => simp
          | some fn => exact bind_ne_tooDeep (ih h) fun x => by simp [pure, Except.pure]

/-- Unless evaluation gets too deep, it gives a value and all nodes are known, or it reports the
first node that is not. -/
theorem eval_cases [Limits] (hdeep : e.eval ≠ .error .tooDeep) :
    (∃ x, e.eval = .ok x ∧ ∀ node ∈ e.nodes, node.IsKnown) ∨
      ∃ error, e.eval = .error (.unknown error) ∧ FirstUnknown error.message e.nodes := by
  have htells : Tells e.nodes e.eval := tells_evalWithin Limits.valueLevels e
  cases hresult : e.eval with
  | ok x =>
      rw [hresult] at htells
      exact Or.inl ⟨x, rfl, htells⟩
  | error failure =>
      rw [hresult] at htells hdeep
      cases failure with
      | unknown error => exact Or.inr ⟨error, rfl, htells⟩
      | tooDeep => exact absurd rfl hdeep

/-- Whatever a tree holds, unless evaluation gets too deep it fails exactly if there is an unknown
node, with the message about the first one in the order of evaluation, and else gives a value.  It
does not get too deep in a tree that has no more levels than the limit. -/
theorem eval_reports_first_unknown [Limits] (e : Expr) :
    (e.fits Limits.valueLevels = true → e.eval ≠ .error .tooDeep) ∧
    (e.eval ≠ .error .tooDeep →
      ((∃ error, e.eval = .error (.unknown error)) ↔
        ∃ node ∈ e.nodes, ∃ message, node.IsUnknown message) ∧
      (∀ message, (∃ error, e.eval = .error (.unknown error) ∧ error.message = message) ↔
        FirstUnknown message e.nodes) ∧
      ((∃ x, e.eval = .ok x) ↔ ∀ node ∈ e.nodes, node.IsKnown)) := by
  refine ⟨evalWithin_ne_tooDeep, ?_⟩
  intro hdeep
  rcases eval_cases hdeep with ⟨x, hresult, hknown⟩ | ⟨error, hresult, hfirst⟩
  · rw [hresult]
    refine ⟨iff_of_false ?_ ?_, fun message => iff_of_false ?_ ?_, iff_of_true ⟨x, rfl⟩ hknown⟩
    · rintro ⟨error, ⟨⟩⟩
    · rintro ⟨node, hnode, message, hunknown⟩
      exact hknown node hnode message hunknown
    · rintro ⟨error, ⟨⟩, -⟩
    · intro hfirst
      obtain ⟨node, hnode, hunknown⟩ := hfirst.exists_isUnknown
      exact hknown node hnode message hunknown
  · obtain ⟨node, hnode, hunknown⟩ := hfirst.exists_isUnknown
    rw [hresult]
    refine ⟨iff_of_true ⟨error, rfl⟩ ⟨node, hnode, _, hunknown⟩, fun message => ⟨?_, ?_⟩,
      iff_of_false ?_ ?_⟩
    · rintro ⟨error', ⟨⟩, rfl⟩
      exact hfirst
    · intro hmessage
      exact ⟨error, rfl, hfirst.unique hmessage⟩
    · rintro ⟨x, ⟨⟩⟩
    · intro hknown
      exact hknown node hnode _ hunknown

/-- A constant that is used as a function comes before its argument, which is no expression, and
before the operators that are applied later. -/
theorem eval_reports_first_unknown_call :
    ∃ error, (binary (.unknown "%") (unary (.unknown "+") (call "pi" (foreign .null)))
        (foreign (.other "tuple"))).eval = .error (.unknown error) ∧
      error.message = "Unknown function: pi" := by
  have hreports := eval_reports_first_unknown (binary (.unknown "%")
    (unary (.unknown "+") (call "pi" (foreign .null))) (foreign (.other "tuple")))
  refine ((hreports.2 (hreports.1 (by decide))).2.1 "Unknown function: pi").mpr ?_
  refine firstUnknown_cons (.call ?_ (by decide +kernel)) _
  intro fn description hmem
  have hnone : Names.function? "pi" = none := by decide
  cases hnone.symm.trans (Names.function?_eq_some_iff.mpr ⟨description, hmem⟩)

end Expr

end LineCalculator
