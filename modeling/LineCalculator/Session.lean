import LineCalculator.Diagnostic
import LineCalculator.Expr.Evaluate
import LineCalculator.Log
import LineCalculator.Parser

/-!
# Working on one lexer

A lexer can be moved on token by token, drained, read from at any level of the grammar, and
evaluated, in any order and also after failures.  Every operation moves it on by a number of tokens
and never changes it in another way, except that a search for which the frames run out is broken
off: it has moved the lexer on, but what it found is lost.

A lexical fault stands at the position that the lexer gives it.  A fault of grammar stands where the
token objected to starts, or at the end of the source when there is no token; that token is not used
up.
-/

namespace LineCalculator

/-- Why an expression has no value. -/
inductive ExprError where
  | lexical (error : LexicalError)
  | grammatical (fault : GrammarFault) (position : Int)
  | unknown (error : EvalError)
  | tooDeep
  deriving DecidableEq, Repr

namespace ExprError

/-- The error in words, without its position. -/
def message : ExprError → String
  | lexical e => e.message
  | grammatical fault _ => fault.message
  | unknown e => e.message
  | tooDeep => "Expression is nested too deeply"

/-- Where the error stands in the source. -/
def position? : ExprError → Option Int
  | lexical e => some e.pos
  | grammatical _ position => some position
  | unknown _ => none
  | tooDeep => none

/-- The error with its position, which does not know its source yet. -/
def diagnostic (e : ExprError) : Diagnostic :=
  ⟨e.message, e.position?.map fun position => ⟨position, none⟩⟩

/-- The error that a failed evaluation is. -/
def ofEval : EvalFailure → ExprError
  | .unknown e => unknown e
  | .tooDeep => tooDeep

end ExprError

namespace Lexer

/-- The position of the token held, or the end of the source. -/
def place (l : Lexer) : Int :=
  if l.current.isFound then l.current.start else l.source.length

/-- The word held. -/
def word? (l : Lexer) : Option Word :=
  if l.current.isFound then some (l.current.word l.source) else none

/-- The record of an objection made at the token held. -/
def objection (l : Lexer) (fault : GrammarFault) : Record :=
  ⟨.debug, "calcula.core.expression_lang.parser",
    "Parse error at " ++ toString l.place ++ " in " ++ Text.quoted (String.ofList l.source) ++
      ": " ++ fault.message⟩

/-- What the grammar has to read, starting with the token held. -/
def input (l : Lexer) : Input :=
  ⟨l.words.1, l.words.2, []⟩

/-- The lexer when only some of its words are left. -/
def leaving (l : Lexer) (left : Nat) : Lexer :=
  l.steps (l.words.1.length - left)

/-- The lexer without what it has found. -/
def bereft (l : Lexer) : Lexer :=
  { l with current := {}, error := none }

/-- The lexer after reading has failed with some of its words left. -/
def failing (l : Lexer) : ReadFailure → Nat → Lexer
  | .brokenOff, left => (l.leaving left).next.bereft
  | _, left => l.leaving left

end Lexer

/-- What an operation leads to: its result, the lexer after it, and what was told meanwhile. -/
structure Step (α : Type) where
  result : Except ExprError α
  lexer : Lexer
  log : List Record := []

/-- The result of a step handed on to a function that leaves the lexer alone. -/
def Step.andThen {α β : Type} (step : Step α) (f : α → Except ExprError β) : Step β :=
  ⟨step.result.bind f, step.lexer, step.log⟩

theorem Step.result_andThen_of_ok {α β : Type} {step : Step α} {f : α → Except ExprError β} {a : α}
    (h : step.result = .ok a) : (step.andThen f).result = f a := by
  rw [andThen, h]
  rfl

theorem Step.result_andThen_of_error {α β : Type} {step : Step α} {f : α → Except ExprError β}
    {e : ExprError} (h : step.result = .error e) : (step.andThen f).result = .error e := by
  rw [andThen, h]
  rfl

namespace Lexer

/-- Uses up the token held. -/
def advance (l : Lexer) : Step Token :=
  match l.next.error with
  | some e => ⟨.error (.lexical e), l.next, []⟩
  | none => ⟨.ok l.current, l.next, []⟩

/-- Uses up the token held if it is of the given kind. -/
def expect (l : Lexer) (kind : Kind) : Step Token :=
  if l.current.kind = kind then l.advance
  else
    let fault := .expected kind l.word?
    ⟨.error (.grammatical fault l.place), l, [l.objection fault]⟩

/-- Places a failure of reading in the source. -/
def locate (l : Lexer) : ReadFailure → ExprError
  | .lexical e => .lexical e
  | .refused refusal => .grammatical refusal.fault (l.leaving refusal.left).place
  | .tooDeep => .tooDeep
  | .brokenOff => .tooDeep

/-- The records of all objections made while reading. -/
def told (l : Lexer) (input : Input) : List Record :=
  input.refusals.map fun refusal => (l.leaving refusal.left).objection refusal.fault

/-- Reads an expression at a level of the grammar, starting with the token held. -/
def parse [Limits] (l : Lexer) (production : Production) : Step Expr :=
  match production.parser l.input with
  | .ok e input => ⟨.ok e, l.leaving input.words.length, l.told input⟩
  | .error failure input =>
    ⟨.error (l.locate failure), l.failing failure input.words.length, l.told input⟩

/-- The value of the sum that starts with the token held.  What follows it stays. -/
def evaluate [Limits] (l : Lexer) : Step Float :=
  (l.parse .expr).andThen fun e => e.eval.mapError ExprError.ofEval

end Lexer

/-- What can be done with a lexer. -/
inductive Operation where
  | next
  | drain
  | advance
  | expect (kind : Kind)
  | parse (production : Production)
  | evaluate
  deriving DecidableEq, Repr

/-- What an operation answers. -/
inductive Reply where
  | found (isFound : Bool)
  | tokens (tokens : List Token)
  | token (token : Token)
  | expression (e : Expr)
  | value (x : Float)
  deriving DecidableEq, Repr

/-- Does an operation. -/
def Operation.run [Limits] (l : Lexer) : Operation → Step Reply
  | next => ⟨.ok (.found l.next.current.isFound), l.next, []⟩
  | drain => ⟨.ok (.tokens l.drain.1), l.drain.2, []⟩
  | advance => l.advance.andThen fun t => .ok (.token t)
  | expect kind => (l.expect kind).andThen fun t => .ok (.token t)
  | parse production => (l.parse production).andThen fun e => .ok (.expression e)
  | evaluate => l.evaluate.andThen fun x => .ok (.value x)

end LineCalculator
