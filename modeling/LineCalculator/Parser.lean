import LineCalculator.Expr
import LineCalculator.Lexer
import LineCalculator.Limits

/-!
# From words to expressions

The grammar, loosest level first, where `{ … }` may occur any number of times:

    line     one sum and nothing after it
    sum      product { ("+" | "-") product }
    product  power { ("*" | "/") power }
    power    unary { "^" unary }
    unary    "-" unary, or a term
    term     a number, a constant, a bracketed sum, or a function with its argument

All operators between operands group to the left, `^` too.  A function that is followed by an
opening bracket takes the bracketed sum as its argument; any other argument is one power.

The parser reads words, so it cannot depend on where they stand.  It never goes back, and it looks
at one word at a time.  What it objects to is kept in a list at the moment of the objection, from
which the log is written.

Every level of the grammar has a procedure.  A call of one takes up a frame until it returns, and
there is a limit to the frames.  What is done at the bottom takes frames too: a procedure that has
used up a word calls for the next one, and one that objects builds its complaint.
-/

namespace LineCalculator

/-- What the grammar can object to.  A word that is missing is the end of the input. -/
inductive GrammarFault where
  | unexpected (found : Option Word)
  | expected (kind : Kind) (found : Option Word)
  | trailing (found : Word)
  | unknownName (name : String)
  deriving DecidableEq, Repr

/-- A word in a message. -/
def Word.describe (w : Word) : String :=
  match w.kind with
  | .name => "name '" ++ String.ofList w.text ++ "'"
  | .number => "number '" ++ String.ofList w.text ++ "'"
  | kind => "'" ++ kind.display ++ "'"

/-- A word in a message, or the end of the input. -/
def describe : Option Word → String
  | none => "end of input"
  | some w => w.describe

/-- The fault in words. -/
def GrammarFault.message : GrammarFault → String
  | unexpected found => "Unexpected " ++ describe found
  | expected kind found => "Expected '" ++ kind.display ++ "', got " ++ describe found
  | trailing found => "Unexpected token after expression: " ++ found.describe
  | unknownName name => "Unknown name '" ++ name ++ "'"

/-- A fault of grammar and the number of words, from the one objected to on, that were not used. -/
structure Refusal where
  fault : GrammarFault
  left : Nat
  deriving DecidableEq, Repr

/-- Why no expression was read.  The frames may have run out between two words or, so that the search
is broken off, while the word behind the one in front was looked for. -/
inductive ReadFailure where
  | lexical (error : LexicalError)
  | refused (refusal : Refusal)
  | tooDeep
  | brokenOff
  deriving DecidableEq, Repr

/-- Whether the frames have run out. -/
def ReadFailure.isCut : ReadFailure → Bool
  | lexical _ => false
  | refused _ => false
  | tooDeep => true
  | brokenOff => true

/-- The words still to be read, the fault that follows the last of them, and the objections made so
far.  When no word is left, a fault belongs to the place that has been reached. -/
structure Input where
  words : List Word
  ending : Option LexicalError
  refusals : List Refusal := []
  deriving DecidableEq, Repr

/-- A reader of words, which may fail. -/
abbrev Parser := EStateM ReadFailure Input

namespace Parser

/-- The word in front, which is not used up. -/
def peek : Parser (Option Word) := do
  return (← get).words.head?

/-- Objects to the word in front. -/
def refuse {α : Type} (fault : GrammarFault) : Parser α := do
  let refusal : Refusal := ⟨fault, (← get).words.length⟩
  modify fun input => { input with refusals := input.refusals ++ [refusal] }
  throw (.refused refusal)

/-- Fails with the fault of the place that has been reached, if there is one. -/
def checkEnding : Parser Unit := do
  match ← get with
  | ⟨[], some e, _⟩ => throw (.lexical e)
  | _ => return ()

/-- Uses up the word in front.  If a lexical fault follows it, this fails. -/
def advance : Parser Unit := do
  modify fun input => { input with words := input.words.tail }
  checkEnding

/-- Uses up a word of the given kind. -/
def expect (kind : Kind) : Parser Unit := do
  let found ← peek
  if found.map Word.kind = some kind then advance else refuse (.expected kind found)

end Parser

/-! ## Frames at the bottom -/

/-- The frames that it takes to begin a search. -/
def searchFrames : Nat := 4

/-- The frames that it takes to complain about a word. -/
def complaintFrames : Nat := 7

/-- The frames that it takes to find a word. -/
def Kind.frames : Kind → Nat
  | .name => searchFrames + 1
  | .number => searchFrames + 1
  | _ => searchFrames

/-- The frames that it takes to find a fault: one that spoils a literal is found a call deeper. -/
def LexicalFault.frames : LexicalFault → Nat
  | unexpectedCharacter _ => 9
  | extraPoint => 10
  | strayInLiteral _ => 10

/-- The frames that it takes to find out what is behind the word in front. -/
def Input.framesAhead (input : Input) : Nat :=
  match input.words.tail, input.ending with
  | w :: _, _ => w.kind.frames
  | [], some e => e.fault.frames
  | [], none => searchFrames

namespace Parser

/-- Objects to the word in front if the frames are enough for the complaint. -/
def refuseWithin {α : Type} (frames : Nat) (fault : GrammarFault) : Parser α :=
  if frames < complaintFrames then throw .tooDeep else refuse fault

/-- Fails with the fault of the place that has been reached, if there is one, and the frames are
enough for the complaint. -/
def checkEndingWithin (frames : Nat) : Parser Unit := do
  let input ← get
  if input.words = [] ∧ input.ending ≠ none ∧ frames < complaintFrames then throw .tooDeep
  else checkEnding

/-- Uses up the word in front if the frames are enough for the search behind it. -/
def advanceWithin (frames : Nat) : Parser Unit := do
  let input ← get
  if frames < searchFrames then throw .tooDeep
  else if frames < input.framesAhead then throw .brokenOff
  else advance

/-- Uses up a word of the given kind; this is a call of its own. -/
def expectWithin (frames : Nat) (kind : Kind) : Parser Unit := do
  let found ← peek
  if found.map Word.kind = some kind then advanceWithin (frames - 1)
  else refuseWithin frames (.expected kind found)

/-! ## Chains of operators -/

/-- Reads on to the right of an operand, as long as operators follow. -/
def chainFrom (advance : Parser Unit) (op? : Kind → Option BinaryOp) (operand : Parser Expr) :
    Nat → Expr → Parser Expr
  | 0, left => return left
  | fuel + 1, left => do
    match (← peek).bind fun w => op? w.kind with
    | none => return left
    | some op => do
      advance
      let right ← operand
      chainFrom advance op? operand fuel (.binary op left right)

/-- Reads operands with operators between them, grouped to the left.  Every operator uses up a word,
so there are at most as many as words. -/
def chain (advance : Parser Unit) (op? : Kind → Option BinaryOp) (operand : Parser Expr) :
    Parser Expr := do
  let left ← operand
  chainFrom advance op? operand (← get).words.length left

/-- The operators of a power. -/
def powerOp? : Kind → Option BinaryOp
  | .caret => some .pow
  | _ => none

/-- The operators of a product. -/
def productOp? : Kind → Option BinaryOp
  | .star => some .mul
  | .slash => some .div
  | _ => none

/-- The operators of a sum. -/
def sumOp? : Kind → Option BinaryOp
  | .plus => some .add
  | .minus => some .sub
  | _ => none

end Parser

/-! ## Procedures -/

/-- The procedures that call one another. -/
inductive Procedure where
  | line
  | expr
  | sum
  | product
  | power
  | unary
  | term
  | named (name : String)
  deriving DecidableEq, Repr

namespace Procedure

/-- Reads the argument of a function by the readers of the procedures: a term if a bracket stands
in front, and a power otherwise. -/
def argument (readers : Procedure → Parser Expr) : Parser Expr := do
  match (← Parser.peek).bind fun w => w.kind.closer? with
  | some _ => readers term
  | none => readers power

/-- Reads the bracket in front, what is inside, and the closing bracket. -/
def bracketed (frames : Nat) (inside : Parser Expr) (closer : Kind) : Parser Expr := do
  Parser.advanceWithin frames
  let e ← inside
  Parser.expectWithin frames closer
  return e

/-- The reader of a procedure in so many frames, its own included. -/
def reader : Nat → Procedure → Parser Expr
  | 0, _ => throw .tooDeep
  | frames + 1, line => do
    let e ← reader frames expr
    match ← Parser.peek with
    | none => return e
    | some w => Parser.refuseWithin frames (.trailing w)
  | frames + 1, expr => do
    Parser.checkEndingWithin frames
    reader frames sum
  | frames + 1, sum =>
    Parser.chain (Parser.advanceWithin frames) Parser.sumOp? (reader frames product)
  | frames + 1, product =>
    Parser.chain (Parser.advanceWithin frames) Parser.productOp? (reader frames power)
  | frames + 1, power =>
    Parser.chain (Parser.advanceWithin frames) Parser.powerOp? (reader frames unary)
  | frames + 1, unary => do
    if (← Parser.peek).map Word.kind = some .minus then
      Parser.advanceWithin frames
      return .unary .neg (← reader frames unary)
    else
      reader frames term
  | frames + 1, term => do
    match ← Parser.peek with
    | none => Parser.refuseWithin frames (.unexpected none)
    | some w =>
      match w.kind with
      | .number => do
        Parser.advanceWithin frames
        return .number w.value
      | .name => reader frames (named (String.ofList w.text))
      | .lparen => bracketed frames (reader frames expr) .rparen
      | .lbracket => bracketed frames (reader frames expr) .rbracket
      | _ => Parser.refuseWithin frames (.unexpected (some w))
  | frames + 1, named name => do
    match Names.lookup name with
    | none => Parser.refuseWithin frames (.unknownName name)
    | some (.constant value _) => do
      Parser.advanceWithin frames
      return .constant name value
    | some (.function _ _) => do
      Parser.advanceWithin frames
      return .call name (← argument (reader frames))

end Procedure

/-- The levels of the grammar at which reading can start. -/
inductive Production where
  | line
  | expr
  | sum
  | product
  | power
  | unary
  | term
  deriving DecidableEq, Repr

namespace Production

/-- The procedure of a level. -/
def procedure : Production → Procedure
  | line => .line
  | expr => .expr
  | sum => .sum
  | product => .product
  | power => .power
  | unary => .unary
  | term => .term

/-- The frames that there are for a level.  The frame of a whole line is not counted, so an expression
can go as deep in it as alone. -/
def frames [Limits] : Production → Nat
  | line => Limits.readingFrames + 1
  | _ => Limits.readingFrames

/-- The reader of a level. -/
def parser [Limits] (production : Production) : Parser Expr :=
  production.procedure.reader production.frames

end Production

end LineCalculator
