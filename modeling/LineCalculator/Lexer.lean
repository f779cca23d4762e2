import LineCalculator.Text.Quoted
import LineCalculator.Token

/-!
# From text to tokens

`scan` looks for one token at the front of a text; `scanAll` repeats it up to the end of the text
or the first fault.  A `Lexer` is a cursor over a source with the token it holds; `Lexer.next` moves
it on by one scan.  A character that starts no token is not passed over, so the lexer stays in front
of it.  A literal that goes wrong is passed over up to and including the character that spoils it,
so the lexer can go on from there.
-/

namespace LineCalculator

/-- The characters that may stand between tokens: space, tab, line feed, carriage return, bell and
vertical tab. -/
def isSpace (c : Char) : Bool :=
  c = ' ' || c = '\t' || c = '\n' || c = '\r' || c.toNat = 7 || c.toNat = 11

/-- A character that goes on a literal: a digit, a point, or a letter of ASCII, which spoils it. -/
def isLiteralChar (c : Char) : Bool :=
  c.isAlphanum || c = '.'

/-- What can be wrong with a text before any grammar is asked. -/
inductive LexicalFault where
  | unexpectedCharacter (c : Char)
  | extraPoint
  | strayInLiteral (c : Char)
  deriving DecidableEq, Repr

/-- The fault in words. -/
def LexicalFault.message : LexicalFault → String
  | unexpectedCharacter c => "Unexpected character: " ++ Text.quotedChar c
  | extraPoint => "Extra '.' in decimal literal"
  | strayInLiteral c => "Invalid decimal literal: unexpected " ++ Text.quotedChar c

/-- A fault and the position of the character at fault. -/
structure LexicalError where
  fault : LexicalFault
  pos : Nat
  deriving DecidableEq, Repr

/-- The error in words, without its position. -/
def LexicalError.message (e : LexicalError) : String :=
  e.fault.message

/-- The first character that spoils a literal: a second point or a letter. -/
def literalError? (seenPoint : Bool) (pos : Nat) : List Char → Option LexicalError
  | [] => none
  | c :: cs =>
    if c.isDigit then literalError? seenPoint (pos + 1) cs
    else if c = '.' then
      if seenPoint then some ⟨.extraPoint, pos⟩ else literalError? true (pos + 1) cs
    else some ⟨.strayInLiteral c, pos⟩

/-- What lies at the front of a text: a token with its text, nothing but space, or a fault.  `pos` is
the position after it and `rest` the text from there on. -/
inductive Scan where
  | token (token : Token) (text : List Char) (pos : Nat) (rest : List Char)
  | finished (pos : Nat)
  | failed (error : LexicalError) (pos : Nat) (rest : List Char)
  deriving DecidableEq, Repr

/-- A token that starts at a position and covers the given characters. -/
def foundToken (kind : Kind) (value : Float) (pos : Nat) (text rest : List Char) : Scan :=
  .token ⟨kind, value, pos, (pos + text.length : Nat)⟩ text (pos + text.length) rest

/-- Scans the literal at the front of a text. -/
def scanNumber (pos : Nat) (cs : List Char) : Scan :=
  match literalError? false pos (cs.takeWhile isLiteralChar) with
  | some e => .failed e (e.pos + 1) (cs.drop (e.pos + 1 - pos))
  | none =>
    foundToken .number (Decimal.read (cs.takeWhile isLiteralChar)) pos
      (cs.takeWhile isLiteralChar) (cs.dropWhile isLiteralChar)

/-- Scans the name at the front of a text. -/
def scanName (pos : Nat) (cs : List Char) : Scan :=
  foundToken .name 0 pos (cs.takeWhile Char.isAlpha) (cs.dropWhile Char.isAlpha)

/-- Scans the next token of the text that starts at a position. -/
def scan (pos : Nat) : List Char → Scan
  | [] => .finished pos
  | c :: cs =>
    if isSpace c then scan (pos + 1) cs
    else
      match Kind.ofMark? c with
      | some kind => foundToken kind 0 pos [c] cs
      | none =>
        if c.isDigit ∨ c = '.' then scanNumber pos (c :: cs)
        else if c.isAlpha then scanName pos (c :: cs)
        else .failed ⟨.unexpectedCharacter c, pos⟩ pos (c :: cs)

/-- A token takes something away from the text. -/
theorem rest_lt_of_scan {pos pos' : Nat} {cs text rest : List Char} {t : Token}
    (h : scan pos cs = .token t text pos' rest) : rest.length < cs.length := by
  have hdrop (p : Char → Bool) (c : Char) (tail : List Char) (hc : p c = true) :
      ((c :: tail).dropWhile p).length < (c :: tail).length := by
    rw [List.dropWhile_cons_of_pos hc]
    exact Nat.lt_succ_of_le (List.dropWhile_suffix p).length_le
  induction cs generalizing pos with
  | nil => simp [scan] at h
  | cons c cs ih =>
    unfold scan at h
    split at h
    · exact Nat.lt_succ_of_lt (ih h)
    · split at h
      · simp only [foundToken, Scan.token.injEq] at h
        simp [← h.2.2.2]
      · split at h
        · rename_i hstart
          unfold scanNumber at h
          split at h
          · simp at h
          · simp only [foundToken, Scan.token.injEq] at h
            rw [← h.2.2.2]
            refine hdrop isLiteralChar c cs ?_
            rcases hstart with hdigit | hpoint
            · simp [isLiteralChar, Char.isAlphanum, hdigit]
            · simp [isLiteralChar, hpoint]
        · split at h
          · rename_i hletter
            simp only [scanName, foundToken, Scan.token.injEq] at h
            rw [← h.2.2.2]
            exact hdrop Char.isAlpha c cs hletter
          · simp at h

/-- All tokens of the text that starts at a position, each with its characters, and the fault that
ended them if one did. -/
def scanAll (pos : Nat) (cs : List Char) : List (Token × List Char) × Option LexicalError :=
  match h : scan pos cs with
  | .token t text pos' rest =>
    have : rest.length < cs.length := rest_lt_of_scan h
    let (tokens, ending) := scanAll pos' rest
    ((t, text) :: tokens, ending)
  | .finished _ => ([], none)
  | .failed e _ _ => ([], some e)
termination_by cs.length

/-- The tokens of a source, or the first fault in it. -/
def tokenize (source : List Char) : Except LexicalError (List Token) :=
  match scanAll 0 source with
  | (tokens, none) => .ok (tokens.map Prod.fst)
  | (_, some e) => .error e

/-- A cursor over a source: its position, the token it holds, and the fault that it met when it last
looked for one. -/
structure Lexer where
  source : List Char
  pos : Nat := 0
  current : Token := {}
  error : Option LexicalError := none
  deriving DecidableEq, Repr

namespace Lexer

/-- A lexer in front of a source, which holds no token yet. -/
def ofSource (source : List Char) : Lexer :=
  { source }

/-- The text that has not been passed over. -/
def unread (l : Lexer) : List Char :=
  l.source.drop l.pos

/-- Whether the cursor has passed the whole source. -/
def isAtEnd (l : Lexer) : Bool :=
  l.source.length ≤ l.pos

/-- Looks for the next token.  The token held before is dropped even when none is found. -/
def next (l : Lexer) : Lexer :=
  match scan l.pos l.unread with
  | .token t _ pos _ => ⟨l.source, pos, t, none⟩
  | .finished pos => ⟨l.source, pos, {}, none⟩
  | .failed e pos _ => ⟨l.source, pos, {}, some e⟩

/-- Looks for the next token a number of times. -/
def steps : Nat → Lexer → Lexer
  | 0, l => l
  | n + 1, l => steps n l.next

/-- Takes all tokens that follow, up to the end or a fault. -/
def drain (l : Lexer) : List Token × Lexer :=
  let tokens := (scanAll l.pos l.unread).1.map Prod.fst
  (tokens, l.steps (tokens.length + 1))

/-- The words from the held token on, and the fault that ends them.  While no token is held there
are none, whatever follows. -/
def words (l : Lexer) : List Word × Option LexicalError :=
  if l.current.isFound then
    let (tokens, ending) := scanAll l.pos l.unread
    (l.current.word l.source :: tokens.map fun (t, text) => ⟨t.kind, text, t.value⟩, ending)
  else ([], l.error)

end Lexer

end LineCalculator
