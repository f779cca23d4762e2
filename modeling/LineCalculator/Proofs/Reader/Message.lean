import LineCalculator.Proofs.Reader.Line
import LineCalculator.Proofs.Text.Quoted

/-!
# What messages show

The error of a line is about something that is there: a fault of the text about the character that
ends all scanning, and a fault of grammar about a lexeme or the end of the line.  So a message is
made of fixed words, lexemes and quoted characters, and none of its characters is invisible.
-/

namespace LineCalculator

variable {source text : List Char} {e : ExprError} {fault : GrammarFault} {found : Option Word}

/-- What the error of a line is about. -/
inductive ExprError.IsFounded : ExprError → Prop
  | lexical {fault : LexicalError} {text : List Char} {c : Char}
      (hfault : IsFaultAfter text c fault.fault) : IsFounded (.lexical fault)
  | grammatical {fault : GrammarFault} {found : Option Word} (position : Int)
      (habout : fault.IsAbout found) (hfound : ∀ w ∈ found, w.IsLexical) :
      IsFounded (.grammatical fault position)
  | tooDeep : IsFounded .tooDeep

theorem isFounded_of_readLine [Limits] (h : (readLine source).result = .error e) :
    e.IsFounded := by
  obtain ⟨ps, ending, hmade⟩ := exists_isMadeOf 0 source
  have hplace := failsInPlace_production .line (Lexer.primed source).input
  rw [readLine_eq_parse, Lexer.parse] at h
  cases hresult : Production.line.parser (Lexer.primed source).input with
  | ok t input =>
      rw [hresult] at h
      cases h
  | error failure input =>
      rw [hresult] at h hplace
      obtain ⟨hleft, hat⟩ := hplace
      have hwords := hleft.words_suffix
      have hending := hleft.ending_eq
      rw [Lexer.input, hmade.words_primed] at hwords hending
      cases hat with
      | lexical hnil he =>
          cases h
          obtain rfl : ending = some _ := hending.symm.trans he
          obtain ⟨_, -, -, _, _, _, _, -, -, hfault, -⟩ := hmade
          exact .lexical hfault
      | refused habout =>
          cases h
          exact .grammatical _ habout fun w hw =>
            hmade.isLexical w (hwords.mem (List.mem_of_mem_head? hw))
      | tooDeep =>
          cases h
          exact .tooDeep
      | brokenOff =>
          cases h
          exact .tooDeep

/-! ## Words in messages -/

theorem Word.describe_of_mark {w : Word} (hname : w.kind ≠ .name) (hnumber : w.kind ≠ .number) :
    w.describe = "'" ++ (w.kind.display ++ "'") := by
  rw [← String.append_assoc, describe]
  split
  · exact absurd ‹_› hname
  · exact absurd ‹_› hnumber
  · rfl

/-! ## Nothing invisible -/

/-- Every character of the text is shown. -/
def IsVisible (s : String) : Prop :=
  Text.AllChars (fun c => Text.isGraphic c = true) s

instance (s : String) : Decidable (IsVisible s) :=
  inferInstanceAs (Decidable (Text.AllChars (fun c => Text.isGraphic c = true) s))

theorem isVisible_of_isAlpha (h : ∀ c ∈ text, c.isAlpha = true) :
    IsVisible (String.ofList text) :=
  Text.allChars_ofList fun c hc => Text.isGraphic_of_isAlphanum (by simp [Char.isAlphanum, h c hc])

theorem isVisible_of_isDigit_or (h : ∀ c ∈ text, c.isDigit = true ∨ c = '.') :
    IsVisible (String.ofList text) := by
  refine Text.allChars_ofList fun c hc => ?_
  rcases h c hc with hdigit | rfl
  · exact Text.isGraphic_of_isAlphanum (by simp [Char.isAlphanum, hdigit])
  · decide

theorem isVisible_display (kind : Kind) : IsVisible kind.display := by
  cases kind <;> decide +kernel

theorem Word.IsLexical.isVisible_describe {w : Word} (h : w.IsLexical) :
    IsVisible w.describe := by
  obtain ⟨kind, text, value⟩ := w
  obtain ⟨hlexeme, -⟩ := h
  have hquote : IsVisible "'" := by decide +kernel
  dsimp only at hlexeme
  cases hlexeme with
  | mark hmark =>
      obtain ⟨-, hname, hnumber⟩ := kind_of_ofMark? hmark
      rw [Word.describe_of_mark hname hnumber]
      exact hquote.append ((isVisible_display kind).append hquote)
  | name hne hletters =>
      have hlabel : IsVisible "name '" := by decide +kernel
      exact (hlabel.append (isVisible_of_isAlpha hletters)).append hquote
  | number hne hdigits hpoint =>
      have hlabel : IsVisible "number '" := by decide +kernel
      exact (hlabel.append (isVisible_of_isDigit_or hdigits)).append hquote

theorem isVisible_describe (h : ∀ w ∈ found, w.IsLexical) : IsVisible (describe found) := by
  cases found with
  | none => decide +kernel
  | some w =>
      have hw : w.IsLexical := h w rfl
      exact hw.isVisible_describe

theorem LexicalFault.isVisible_message (fault : LexicalFault) : IsVisible fault.message := by
  have hquoted : ∀ c, IsVisible (Text.quotedChar c) :=
    fun c => Text.allChars_quotedChar fun d hd => hd.1
  cases fault with
  | unexpectedCharacter c =>
      have hopening : IsVisible "Unexpected character: " := by decide +kernel
      exact hopening.append (hquoted c)
  | extraPoint =>
      have hmessage : IsVisible "Extra '.' in decimal literal" := by decide +kernel
      exact hmessage
  | strayInLiteral c =>
      have hopening : IsVisible "Invalid decimal literal: unexpected " := by decide +kernel
      exact hopening.append (hquoted c)

theorem GrammarFault.IsAbout.isVisible_message (h : fault.IsAbout found)
    (hfound : ∀ w ∈ found, w.IsLexical) : IsVisible fault.message := by
  have hdescribe := isVisible_describe hfound
  cases h with
  | unexpected =>
      have hopening : IsVisible "Unexpected " := by decide +kernel
      exact hopening.append hdescribe
  | @expected kind hkind =>
      have hopening : IsVisible "Expected '" := by decide +kernel
      have hgot : IsVisible "', got " := by decide +kernel
      exact ((hopening.append (isVisible_display kind)).append hgot).append hdescribe
  | @trailing w htrailing =>
      subst htrailing
      have hopening : IsVisible "Unexpected token after expression: " := by decide +kernel
      exact hopening.append hdescribe
  | @unknownName w htrailing hkind hlookup =>
      have hlabel : IsVisible "Unknown name '" := by decide +kernel
      have hquote : IsVisible "'" := by decide +kernel
      obtain ⟨hlexeme, -⟩ := hfound w htrailing
      rw [hkind] at hlexeme
      exact (hlabel.append (isVisible_of_isAlpha hlexeme.isAlpha_of_name)).append hquote

/-- The message of the error of a line shows nothing invisible, whatever stands in the line. -/
theorem isVisible_message_of_readLine [Limits] (h : (readLine source).result = .error e) :
    IsVisible e.message := by
  cases isFounded_of_readLine h with
  | lexical => exact LexicalFault.isVisible_message _
  | grammatical position habout hfound => exact habout.isVisible_message hfound
  | tooDeep => decide +kernel

end LineCalculator
