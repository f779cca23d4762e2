import LineCalculator.Lexer

/-!
# Lexemes

A lexeme is a mark, a run of letters, or a run of digits with at most one point.  Which characters
may not follow a lexeme directly depends on its kind only: they are those that a longer lexeme would
take in.  This file states the lexical grammar apart from the scanner.
-/

namespace LineCalculator

/-! ## The lexical grammar -/

/-- The six characters that may stand between lexemes. -/
def spaces : List Char :=
  [' ', '\t', '\n', '\r', '\x07', '\x0b']

/-- The nine operators and brackets. -/
def marks : List Char :=
  ['+', '-', '*', '/', '^', '(', ')', '[', ']']

/-- A text of spaces only. -/
def IsGap (cs : List Char) : Prop :=
  ∀ c ∈ cs, c ∈ spaces

/-- The texts that are lexemes of a kind. -/
inductive IsLexeme : Kind → List Char → Prop
  | mark {c : Char} {kind : Kind} (hmark : Kind.ofMark? c = some kind) : IsLexeme kind [c]
  | name {cs : List Char} (hne : cs ≠ []) (hletters : ∀ c ∈ cs, c.isAlpha = true) :
      IsLexeme .name cs
  | number {cs : List Char} (hne : cs ≠ []) (hdigits : ∀ c ∈ cs, c.isDigit = true ∨ c = '.')
      (hpoint : cs.count '.' ≤ 1) : IsLexeme .number cs

/-- The characters that may not directly follow a lexeme of a kind. -/
def Continues : Kind → Char → Prop
  | .name, c => c.isAlpha = true
  | .number, c => c.isAlphanum = true ∨ c = '.'
  | _, _ => False

/-- A text that can follow a lexeme of a kind without any of it becoming part of the lexeme. -/
def EndsBefore (kind : Kind) (rest : List Char) : Prop :=
  ∀ c ∈ rest.head?, ¬ Continues kind c

/-- The value that a lexeme carries: that of a numeral, and zero for all others. -/
def lexemeValue (kind : Kind) (text : List Char) : Float :=
  if kind = .number then Decimal.read text else 0

/-- What makes a character end all scanning: it starts no lexeme where one should start, or it
spoils the numeral that the text in front of it began. -/
inductive IsFaultAfter : List Char → Char → LexicalFault → Prop
  | unexpectedCharacter {c : Char} (hspace : c ∉ spaces) (hmark : Kind.ofMark? c = none)
      (hliteral : c.isAlphanum = false) (hpoint : c ≠ '.') :
      IsFaultAfter [] c (.unexpectedCharacter c)
  | extraPoint {text : List Char} (hdigits : ∀ c ∈ text, c.isDigit = true ∨ c = '.')
      (hpoint : text.count '.' = 1) : IsFaultAfter text '.' .extraPoint
  | strayInLiteral {text : List Char} {c : Char} (hne : text ≠ [])
      (hdigits : ∀ c ∈ text, c.isDigit = true ∨ c = '.') (hpoint : text.count '.' ≤ 1)
      (hletter : c.isAlpha = true) : IsFaultAfter text c (.strayInLiteral c)

/-! ## Classes of characters -/

theorem isSpace_iff {c : Char} : isSpace c = true ↔ c ∈ spaces := by
  have hbell : c.toNat = 7 ↔ c = '\x07' :=
    ⟨fun h => Char.toNat_inj.mp h, fun h => by rw [h]; rfl⟩
  have htab : c.toNat = 11 ↔ c = '\x0b' :=
    ⟨fun h => Char.toNat_inj.mp h, fun h => by rw [h]; rfl⟩
  simp [isSpace, spaces, hbell, htab, or_assoc]

theorem mem_marks_of_ofMark? {c : Char} {kind : Kind} (h : Kind.ofMark? c = some kind) :
    c ∈ marks := by
  unfold Kind.ofMark? at h
  split at h
  case h_10 => cases h
  all_goals decide

theorem spaces_facts : ∀ c ∈ spaces,
    Kind.ofMark? c = none ∧ c.isDigit = false ∧ c.isAlpha = false ∧ c ≠ '.' := by
  intro c hc
  simp only [spaces, List.mem_cons, List.not_mem_nil, or_false] at hc
  rcases hc with rfl | rfl | rfl | rfl | rfl | rfl <;> decide

theorem marks_facts : ∀ c ∈ marks,
    isSpace c = false ∧ c.isDigit = false ∧ c.isAlpha = false ∧ c ≠ '.' := by
  intro c hc
  simp only [marks, List.mem_cons, List.not_mem_nil, or_false] at hc
  rcases hc with rfl | rfl | rfl | rfl | rfl | rfl | rfl | rfl | rfl <;> decide

theorem isSpace_eq_false {c : Char} (h : c.isDigit = true ∨ c.isAlpha = true ∨ c = '.') :
    isSpace c = false := by
  rw [← Bool.not_eq_true, isSpace_iff]
  intro hmem
  obtain ⟨-, hdigit, hletter, hpoint⟩ := spaces_facts c hmem
  simp [hdigit, hletter, hpoint] at h

theorem ofMark?_eq_none {c : Char} (h : c.isDigit = true ∨ c.isAlpha = true ∨ c = '.') :
    Kind.ofMark? c = none := by
  cases hmark : Kind.ofMark? c with
  | none => rfl
  | some kind =>
      obtain ⟨-, hdigit, hletter, hpoint⟩ := marks_facts c (mem_marks_of_ofMark? hmark)
      simp [hdigit, hletter, hpoint] at h

theorem isDigit_eq_false_of_isAlpha {c : Char} (h : c.isAlpha = true) : c.isDigit = false := by
  unfold Char.isAlpha Char.isUpper Char.isLower at h
  simp only [Char.isDigit, Bool.or_eq_true, Bool.and_eq_true, decide_eq_true_eq,
    Bool.and_eq_false_iff, decide_eq_false_iff_not, UInt32.le_iff_toNat_le] at h ⊢
  rcases h with h | h
  · exact Or.inr fun h' => absurd (Nat.le_trans h.1 h') (by decide)
  · exact Or.inr fun h' => absurd (Nat.le_trans h.1 h') (by decide)

theorem ne_point_of_isAlpha {c : Char} (h : c.isAlpha = true) : c ≠ '.' := by
  rintro rfl
  exact absurd h (by decide)

theorem isLiteralChar_iff {c : Char} :
    isLiteralChar c = true ↔ c.isAlphanum = true ∨ c = '.' := by
  simp [isLiteralChar]

theorem isLiteralChar_of_isDigit_or {c : Char} (h : c.isDigit = true ∨ c = '.') :
    isLiteralChar c = true := by
  rcases h with h | h
  · simp [isLiteralChar, Char.isAlphanum, h]
  · simp [isLiteralChar, h]

theorem kind_of_ofMark? {c : Char} {kind : Kind} (h : Kind.ofMark? c = some kind) :
    kind ≠ .invalid ∧ kind ≠ .name ∧ kind ≠ .number := by
  unfold Kind.ofMark? at h
  split at h <;> cases h <;> decide

/-- Anything can follow a mark. -/
theorem endsBefore_of_ofMark? {c : Char} {kind : Kind} (h : Kind.ofMark? c = some kind)
    (rest : List Char) : EndsBefore kind rest := by
  obtain ⟨-, hname, hnumber⟩ := kind_of_ofMark? h
  intro d _ hcontinues
  cases kind with
  | name => exact hname rfl
  | number => exact hnumber rfl
  | _ => exact hcontinues

/-! ## Facts about lexemes -/

theorem isGap_nil : IsGap [] := by simp [IsGap]

theorem isGap_space : IsGap [' '] := by simp [IsGap, spaces]

theorem IsLexeme.ne_nil {kind : Kind} {text : List Char} (h : IsLexeme kind text) :
    text ≠ [] := by
  cases h with
  | mark => simp
  | name hne => exact hne
  | number hne => exact hne

theorem IsLexeme.kind_ne_invalid {kind : Kind} {text : List Char} (h : IsLexeme kind text) :
    kind ≠ .invalid := by
  rintro rfl
  cases h with
  | mark hmark => exact (kind_of_ofMark? hmark).1 rfl

theorem IsLexeme.isDigit_or_of_number {text : List Char} (h : IsLexeme .number text) :
    ∀ c ∈ text, c.isDigit = true ∨ c = '.' := by
  cases h with
  | mark hmark => exact absurd rfl (kind_of_ofMark? hmark).2.2
  | number _ hdigits _ => exact hdigits

theorem IsLexeme.isAlpha_of_name {text : List Char} (h : IsLexeme .name text) :
    ∀ c ∈ text, c.isAlpha = true := by
  cases h with
  | mark hmark => exact absurd rfl (kind_of_ofMark? hmark).2.1
  | name _ hletters => exact hletters

theorem IsLexeme.isSpace_eq_false {kind : Kind} {text : List Char} (h : IsLexeme kind text)
    {c : Char} (hc : c ∈ text) : isSpace c = false := by
  cases h with
  | mark hmark =>
      rw [List.mem_singleton.mp hc]
      exact (marks_facts _ (mem_marks_of_ofMark? hmark)).1
  | name _ hletters => exact LineCalculator.isSpace_eq_false (Or.inr (Or.inl (hletters c hc)))
  | number _ hdigits =>
      rcases hdigits c hc with hdigit | hpoint
      · exact LineCalculator.isSpace_eq_false (Or.inl hdigit)
      · exact LineCalculator.isSpace_eq_false (Or.inr (Or.inr hpoint))

end LineCalculator
