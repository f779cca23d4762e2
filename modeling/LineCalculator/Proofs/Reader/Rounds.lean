import LineCalculator.Proofs.Reader.Objection

/-!
# Rounds of a loop

A chain of operators is read in rounds, one for each operator, and a number of rounds is given that
is not to be exceeded.  Each round uses up a word, so this number is never what ends the loop: once
there is a round for every word, more of them make no difference.
-/

namespace LineCalculator

variable {α β : Type} {input : Input} {advance : Parser Unit} {op? : Kind → Option BinaryOp}
  {p : Parser Expr}

theorem bind_of_ok {q : Parser α} {f : α → Parser β} {a : α} {rest : Input}
    (h : q input = .ok a rest) : (q >>= f) input = f a rest := by
  change EStateM.bind q f input = f a rest
  rw [EStateM.bind, h]

theorem bind_of_error {q : Parser α} {f : α → Parser β} {failure : ReadFailure} {rest : Input}
    (h : q input = .error failure rest) : (q >>= f) input = .error failure rest := by
  change EStateM.bind q f input = .error failure rest
  rw [EStateM.bind, h]

theorem bind_congr_of_ok {q : Parser α} {f g : α → Parser β}
    (h : ∀ a rest, q input = .ok a rest → f a rest = g a rest) :
    (q >>= f) input = (q >>= g) input := by
  cases hresult : q input with
  | ok a rest =>
      rw [bind_of_ok hresult, bind_of_ok hresult]
      exact h a rest hresult
  | error failure rest => rw [bind_of_error hresult, bind_of_error hresult]

theorem length_words_of_advance {frames : Nat} {rest : Input}
    (h : Parser.advanceWithin frames input = .ok () rest) (hne : input.words ≠ []) :
    rest.words.length < input.words.length := by
  rw [advanceWithin_apply] at h
  split at h
  · cases h
  · split at h
    · cases h
    · have hplace := failsInPlace_checkEnding { input with words := input.words.tail }
      change Parser.checkEnding { input with words := input.words.tail } = .ok () rest at h
      rw [h] at hplace
      have hle := hplace.words_suffix.length_le
      have hpos := List.length_pos_iff.mpr hne
      rw [List.length_tail] at hle
      omega

theorem peek_bind {f : Option Word → Parser β} :
    (Parser.peek >>= f) input = f input.words.head? input :=
  rfl

theorem chainFrom_of_none (h : (input.words.head?.bind fun w => op? w.kind) = none) (n : Nat)
    (left : Expr) : Parser.chainFrom advance op? p n left input = .ok left input := by
  cases n with
  | zero => rfl
  | succ n =>
      rw [Parser.chainFrom, peek_bind, h]
      rfl

/-- A chain of operators ends by itself: no number of rounds from the number of words on makes a
difference. -/
theorem chainFrom_eq_of_le (hp : ∀ input, FailsInPlace input (p input)) {frames n m : Nat}
    (left : Expr) (hn : input.words.length ≤ n) (hm : input.words.length ≤ m) :
    Parser.chainFrom (Parser.advanceWithin frames) op? p n left input =
      Parser.chainFrom (Parser.advanceWithin frames) op? p m left input := by
  induction n generalizing m left input with
  | zero =>
      have hnil : input.words = [] := List.eq_nil_of_length_eq_zero (Nat.le_zero.mp hn)
      have hnone : (input.words.head?.bind fun w => op? w.kind) = none := by rw [hnil]; rfl
      rw [chainFrom_of_none hnone, chainFrom_of_none hnone]
  | succ n ih =>
      cases hop : input.words.head?.bind fun w => op? w.kind with
      | none => rw [chainFrom_of_none hop, chainFrom_of_none hop]
      | some op =>
          have hne : input.words ≠ [] := fun hnil => by simp [hnil] at hop
          have hpos := List.length_pos_iff.mpr hne
          obtain ⟨m, rfl⟩ : ∃ k, m = k + 1 := ⟨m - 1, by omega⟩
          rw [Parser.chainFrom, Parser.chainFrom, peek_bind, peek_bind, hop]
          refine bind_congr_of_ok fun _ rest hrest => bind_congr_of_ok fun right rest' hrest' => ?_
          have hlt := length_words_of_advance hrest hne
          have hplace := hp rest
          rw [hrest'] at hplace
          have hle := hplace.words_suffix.length_le
          exact ih _ (by omega) (by omega)

/-- What a procedure does behind a tree that it has read, in so many frames and rounds. -/
def Procedure.goOn (frames rounds : Nat) (e : Expr) : Procedure → Parser Expr
  | sum =>
    Parser.chainFrom (Parser.advanceWithin frames) Parser.sumOp? (product.reader frames) rounds e
  | product =>
    Parser.chainFrom (Parser.advanceWithin frames) Parser.productOp? (power.reader frames) rounds e
  | power =>
    Parser.chainFrom (Parser.advanceWithin frames) Parser.powerOp? (unary.reader frames) rounds e
  | _ => pure e

theorem goOn_eq_of_le (procedure : Procedure) (frames : Nat) (e : Expr) {rounds : Nat}
    (hrounds : input.words.length ≤ rounds) :
    procedure.goOn frames rounds e input = procedure.goOn frames input.words.length e input := by
  have hplace := failsInPlace_reader frames
  cases procedure with
  | sum => exact chainFrom_eq_of_le (hplace .product · trivial) e hrounds (Nat.le_refl _)
  | product => exact chainFrom_eq_of_le (hplace .power · trivial) e hrounds (Nat.le_refl _)
  | power => exact chainFrom_eq_of_le (hplace .unary · trivial) e hrounds (Nat.le_refl _)
  | _ => rfl

end LineCalculator
