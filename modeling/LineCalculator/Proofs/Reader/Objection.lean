import LineCalculator.Proofs.Grammar.Phrase
import LineCalculator.Proofs.Reader.Run

/-!
# What readers object to

A reader uses up words from the front and changes nothing else of what it has to read, except that it
keeps its objections.  When it fails, the failure is about what it leaves: a fault of grammar is about
the word in front, which is still there, a fault of the text is reported where no word is left and the
text ends in it, and a search that is broken off started behind a word that is still in front.  This
holds whatever the frames are, so it does not matter how many procedures have to give up together.
-/

namespace LineCalculator

variable {α β : Type} {input rest : Input} {found : Option Word} {fault : GrammarFault}

/-- The fault is about the given word, or about the end of the input if there is none. -/
inductive GrammarFault.IsAbout (found : Option Word) : GrammarFault → Prop
  | unexpected : IsAbout found (.unexpected found)
  | expected {kind : Kind} (hkind : found.map Word.kind ≠ some kind) :
      IsAbout found (.expected kind found)
  | trailing {w : Word} (hfound : found = some w) : IsAbout found (.trailing w)
  | unknownName {w : Word} (hfound : found = some w) (hkind : w.kind = .name)
      (hname : Names.lookup w.name = none) : IsAbout found (.unknownName w.name)

/-- What an input becomes when words are used up and objections are made. -/
structure Input.IsLeftOf (told : List Refusal) (rest input : Input) : Prop where
  words_suffix : rest.words <:+ input.words
  ending_eq : rest.ending = input.ending
  refusals_eq : rest.refusals = input.refusals ++ told

/-- The objections that a failure comes with. -/
def ReadFailure.refusals : ReadFailure → List Refusal
  | refused refusal => [refusal]
  | _ => []

/-- The failure is about what stands in front. -/
inductive ReadFailure.IsAt (rest : Input) : ReadFailure → Prop
  | lexical {e : LexicalError} (hwords : rest.words = []) (hending : rest.ending = some e) :
      IsAt rest (.lexical e)
  | refused {fault : GrammarFault} (habout : fault.IsAbout rest.words.head?) :
      IsAt rest (.refused ⟨fault, rest.words.length⟩)
  | tooDeep : IsAt rest .tooDeep
  | brokenOff (hwords : rest.words ≠ []) : IsAt rest .brokenOff

/-- Of the input only words are used up, and a failure is about what is left. -/
def FailsInPlace (input : Input) : EStateM.Result ReadFailure Input α → Prop
  | .ok _ rest => rest.IsLeftOf [] input
  | .error failure rest => rest.IsLeftOf failure.refusals input ∧ failure.IsAt rest

theorem Input.IsLeftOf.refl (input : Input) : input.IsLeftOf [] input :=
  ⟨List.suffix_refl _, rfl, (List.append_nil _).symm⟩

theorem Input.IsLeftOf.trans {told : List Refusal} {last : Input} (h : last.IsLeftOf told rest)
    (h' : rest.IsLeftOf [] input) : last.IsLeftOf told input := by
  refine ⟨h.words_suffix.trans h'.words_suffix, h.ending_eq.trans h'.ending_eq, ?_⟩
  rw [h.refusals_eq, h'.refusals_eq, List.append_nil]

theorem Input.IsLeftOf.failsInPlace {result : EStateM.Result ReadFailure Input α}
    (h : rest.IsLeftOf [] input) (hresult : FailsInPlace rest result) :
    FailsInPlace input result := by
  cases result with
  | ok a last => exact hresult.trans h
  | error failure last => exact ⟨hresult.1.trans h, hresult.2⟩

/-! ## Composition -/

theorem failsInPlace_pure (a : α) (input : Input) :
    FailsInPlace input ((pure a : Parser α) input) :=
  .refl input

theorem failsInPlace_tooDeep (input : Input) :
    FailsInPlace input ((throw .tooDeep : Parser α) input) :=
  ⟨.refl input, .tooDeep⟩

theorem failsInPlace_bind {p : Parser α} {f : α → Parser β} (hp : FailsInPlace input (p input))
    (hf : ∀ a rest, p input = .ok a rest → FailsInPlace rest (f a rest)) :
    FailsInPlace input ((p >>= f) input) := by
  change FailsInPlace input (EStateM.bind p f input)
  rw [EStateM.bind]
  cases hresult : p input with
  | ok a rest =>
      rw [hresult] at hp
      exact Input.IsLeftOf.failsInPlace hp (hf a rest hresult)
  | error failure rest =>
      rw [hresult] at hp
      exact hp

theorem failsInPlace_peek {f : Option Word → Parser β}
    (hf : FailsInPlace input (f input.words.head? input)) :
    FailsInPlace input ((Parser.peek >>= f) input) :=
  hf

/-! ## What is done at the bottom -/

theorem failsInPlace_refuse (h : fault.IsAbout input.words.head?) :
    FailsInPlace input ((Parser.refuse fault : Parser α) input) :=
  ⟨⟨List.suffix_refl _, rfl, rfl⟩, .refused h⟩

theorem failsInPlace_checkEnding (input : Input) :
    FailsInPlace input (Parser.checkEnding input) := by
  obtain ⟨words, ending, refusals⟩ := input
  cases words with
  | nil =>
      cases ending with
      | none => exact .refl _
      | some e => exact ⟨.refl _, .lexical rfl rfl⟩
  | cons w words => exact .refl _

theorem failsInPlace_advance (input : Input) : FailsInPlace input (Parser.advance input) := by
  have hleft : Input.IsLeftOf [] { input with words := input.words.tail } input :=
    ⟨List.tail_suffix _, rfl, (List.append_nil _).symm⟩
  exact hleft.failsInPlace (failsInPlace_checkEnding _)

theorem refuseWithin_apply (frames : Nat) (fault : GrammarFault) (input : Input) :
    (Parser.refuseWithin frames fault : Parser α) input =
      if frames < complaintFrames then .error .tooDeep input else Parser.refuse fault input := by
  unfold Parser.refuseWithin
  split <;> rfl

theorem checkEndingWithin_apply (frames : Nat) (input : Input) :
    Parser.checkEndingWithin frames input =
      if input.words = [] ∧ input.ending ≠ none ∧ frames < complaintFrames then
        .error .tooDeep input
      else Parser.checkEnding input := by
  change (if input.words = [] ∧ input.ending ≠ none ∧ frames < complaintFrames
    then throw .tooDeep else Parser.checkEnding : Parser Unit) input = _
  split <;> rfl

theorem advanceWithin_apply (frames : Nat) (input : Input) :
    Parser.advanceWithin frames input =
      if frames < searchFrames then .error .tooDeep input
      else if frames < input.framesAhead then .error .brokenOff input
      else Parser.advance input := by
  change (if frames < searchFrames then throw .tooDeep
    else if frames < input.framesAhead then throw .brokenOff else Parser.advance : Parser Unit)
      input = _
  split
  · rfl
  · split <;> rfl

section Bottom

variable {frames : Nat}

theorem failsInPlace_refuseWithin (h : fault.IsAbout input.words.head?) :
    FailsInPlace input ((Parser.refuseWithin frames fault : Parser α) input) := by
  rw [refuseWithin_apply]
  split
  · exact failsInPlace_tooDeep input
  · exact failsInPlace_refuse h

theorem failsInPlace_checkEndingWithin (frames : Nat) (input : Input) :
    FailsInPlace input (Parser.checkEndingWithin frames input) := by
  rw [checkEndingWithin_apply]
  split
  · exact failsInPlace_tooDeep input
  · exact failsInPlace_checkEnding input

theorem failsInPlace_advanceWithin (hwords : input.words ≠ []) :
    FailsInPlace input (Parser.advanceWithin frames input) := by
  rw [advanceWithin_apply]
  split
  · exact failsInPlace_tooDeep input
  · split
    · exact ⟨.refl input, .brokenOff hwords⟩
    · exact failsInPlace_advance input

theorem failsInPlace_expectWithin (kind : Kind) (input : Input) :
    FailsInPlace input (Parser.expectWithin frames kind input) := by
  apply failsInPlace_peek
  by_cases hkind : input.words.head?.map Word.kind = some kind
  · rw [if_pos hkind]
    exact failsInPlace_advanceWithin fun hnil => by simp [hnil] at hkind
  · rw [if_neg hkind]
    exact failsInPlace_refuseWithin (.expected hkind)

end Bottom

/-! ## The procedures -/

section Chain

variable {p : Parser Expr} {frames : Nat} (hp : ∀ input, FailsInPlace input (p input))
include hp

theorem failsInPlace_chainFrom (op? : Kind → Option BinaryOp) (n : Nat) (left : Expr)
    (input : Input) :
    FailsInPlace input (Parser.chainFrom (Parser.advanceWithin frames) op? p n left input) := by
  induction n generalizing left input with
  | zero => exact failsInPlace_pure left input
  | succ n ih =>
      apply failsInPlace_peek
      cases hop : input.words.head?.bind fun w => op? w.kind with
      | none => exact failsInPlace_pure left input
      | some op =>
          have hwords : input.words ≠ [] := fun hnil => by simp [hnil] at hop
          exact failsInPlace_bind (failsInPlace_advanceWithin hwords) fun _ rest _ =>
            failsInPlace_bind (hp rest) fun right rest _ => ih (.binary op left right) rest

theorem failsInPlace_chain (op? : Kind → Option BinaryOp) (input : Input) :
    FailsInPlace input (Parser.chain (Parser.advanceWithin frames) op? p input) :=
  failsInPlace_bind (hp input) fun left rest _ =>
    failsInPlace_chainFrom hp op? rest.words.length left rest

end Chain

/-- The procedure for names is called in front of the name that it is given. -/
def Procedure.IsCalledAt (input : Input) : Procedure → Prop
  | named name => ∃ w, input.words.head? = some w ∧ w.kind = .name ∧ w.name = name
  | _ => True

theorem failsInPlace_bracketed {p : Parser Expr} (hp : ∀ input, FailsInPlace input (p input))
    (frames : Nat) (closer : Kind) (hwords : input.words ≠ []) :
    FailsInPlace input (Procedure.bracketed frames p closer input) :=
  failsInPlace_bind (failsInPlace_advanceWithin hwords) fun _ rest _ =>
    failsInPlace_bind (hp rest) fun e rest _ =>
      failsInPlace_bind (failsInPlace_expectWithin closer rest) fun _ rest _ =>
        failsInPlace_pure e rest

theorem failsInPlace_argument {readers : Procedure → Parser Expr}
    (hterm : ∀ input, FailsInPlace input (readers .term input))
    (hpower : ∀ input, FailsInPlace input (readers .power input)) (input : Input) :
    FailsInPlace input (Procedure.argument readers input) := by
  apply failsInPlace_peek
  cases input.words.head?.bind fun w => w.kind.closer? with
  | none => exact hpower input
  | some closer => exact hterm input

/-- A procedure fails in place, whatever its frames are. -/
theorem failsInPlace_reader (frames : Nat) (procedure : Procedure) (input : Input)
    (hcalled : procedure.IsCalledAt input) :
    FailsInPlace input (procedure.reader frames input) := by
  induction frames generalizing procedure input with
  | zero => exact failsInPlace_tooDeep input
  | succ frames ih =>
      cases procedure with
      | line =>
          refine failsInPlace_bind (ih .expr input trivial) fun e rest _ => ?_
          apply failsInPlace_peek
          cases hfound : rest.words.head? with
          | none => exact failsInPlace_pure e rest
          | some w => exact failsInPlace_refuseWithin (.trailing hfound)
      | expr =>
          exact failsInPlace_bind (failsInPlace_checkEndingWithin frames input) fun _ rest _ =>
            ih .sum rest trivial
      | sum => exact failsInPlace_chain (fun input => ih .product input trivial) _ input
      | product => exact failsInPlace_chain (fun input => ih .power input trivial) _ input
      | power => exact failsInPlace_chain (fun input => ih .unary input trivial) _ input
      | unary =>
          apply failsInPlace_peek
          by_cases hminus : input.words.head?.map Word.kind = some .minus
          · have hwords : input.words ≠ [] := fun hnil => by simp [hnil] at hminus
            rw [if_pos hminus]
            exact failsInPlace_bind (failsInPlace_advanceWithin hwords) fun _ rest _ =>
              failsInPlace_bind (ih .unary rest trivial) fun e rest _ => failsInPlace_pure _ rest
          · rw [if_neg hminus]
            exact ih .term input trivial
      | term =>
          apply failsInPlace_peek
          cases hfound : input.words.head? with
          | none =>
              apply failsInPlace_refuseWithin
              rw [hfound]
              exact .unexpected
          | some w =>
              have hwords : input.words ≠ [] := fun hnil => by simp [hnil] at hfound
              have hrefused : FailsInPlace input
                  ((Parser.refuseWithin frames (.unexpected (some w)) : Parser Expr) input) := by
                apply failsInPlace_refuseWithin
                rw [hfound]
                exact .unexpected
              have hgroup := fun closer =>
                failsInPlace_bracketed (fun input => ih .expr input trivial) frames closer hwords
              dsimp only
              cases hkind : w.kind with
              | number =>
                  exact failsInPlace_bind (failsInPlace_advanceWithin hwords) fun _ rest _ =>
                    failsInPlace_pure _ rest
              | name => exact ih (.named w.name) input ⟨w, hfound, hkind, rfl⟩
              | lparen => exact hgroup .rparen
              | lbracket => exact hgroup .rbracket
              | _ => exact hrefused
      | named name =>
          obtain ⟨w, hfound, hkind, rfl⟩ := hcalled
          have hwords : input.words ≠ [] := fun hnil => by simp [hnil] at hfound
          rw [Procedure.reader]
          cases hname : Names.lookup w.name with
          | none => exact failsInPlace_refuseWithin (.unknownName hfound hkind hname)
          | some entry =>
              cases entry with
              | constant value description =>
                  exact failsInPlace_bind (failsInPlace_advanceWithin hwords) fun _ rest _ =>
                    failsInPlace_pure _ rest
              | function fn description =>
                  have hargument := failsInPlace_argument (fun input => ih .term input trivial)
                    fun input => ih .power input trivial
                  exact failsInPlace_bind (failsInPlace_advanceWithin hwords) fun _ rest _ =>
                    failsInPlace_bind (hargument rest) fun arg rest _ => failsInPlace_pure _ rest

/-- Reading at any level of the grammar fails in place. -/
theorem failsInPlace_production [Limits] (production : Production) (input : Input) :
    FailsInPlace input (production.parser input) := by
  refine failsInPlace_reader _ _ input ?_
  cases production <;> trivial

end LineCalculator
