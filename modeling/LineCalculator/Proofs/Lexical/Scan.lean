import Mathlib.Data.List.TakeWhile
import LineCalculator.Proofs.Lexical.Lexeme

/-!
# One scan

Behind the spaces at the front of a text stands a lexeme, nothing, or a fault.  This file shows that
these are all the cases there are and what the scanner answers in each of them.
-/

namespace LineCalculator

theorem takeWhile_append_eq {p : Char → Bool} {text rest : List Char}
    (htext : ∀ c ∈ text, p c = true) (hrest : ∀ c ∈ rest.head?, p c = false) :
    (text ++ rest).takeWhile p = text ∧ (text ++ rest).dropWhile p = rest := by
  have hstop : rest.takeWhile p = [] ∧ rest.dropWhile p = rest := by
    cases rest with
    | nil => simp
    | cons c cs => simp [hrest c rfl]
  rw [List.takeWhile_append_of_pos htext, List.dropWhile_append_of_pos htext, hstop.1, hstop.2]
  simp

theorem head?_dropWhile_eq_false {p : Char → Bool} {cs : List Char} :
    ∀ c ∈ (cs.dropWhile p).head?, p c = false := by
  intro c hc
  have hnot := List.head?_dropWhile_not p cs
  rw [Option.mem_def.mp hc] at hnot
  simpa using hnot

theorem literalError?_eq_none_iff {seenPoint : Bool} {pos : Nat} {cs : List Char} :
    literalError? seenPoint pos cs = none ↔
      (∀ c ∈ cs, c.isDigit = true ∨ c = '.') ∧ cs.count '.' + seenPoint.toNat ≤ 1 := by
  induction cs generalizing seenPoint pos with
  | nil => cases seenPoint <;> simp [literalError?]
  | cons c cs ih =>
      by_cases hdigit : c.isDigit = true
      · have hpoint : c ≠ '.' := by
          rintro rfl
          exact absurd hdigit (by decide)
        simp [literalError?, hdigit, hpoint, ih]
      · by_cases hpoint : c = '.'
        · subst hpoint
          cases seenPoint with
          | true => simp [literalError?, hdigit]
          | false =>
              simp [literalError?, hdigit, ih]
        · simp [literalError?, hdigit, hpoint]

theorem scan_gap_append {gap : List Char} (hgap : IsGap gap) (pos : Nat) (cs : List Char) :
    scan pos (gap ++ cs) = scan (pos + gap.length) cs := by
  induction gap generalizing pos with
  | nil => simp
  | cons c gap ih =>
      have hspace : isSpace c = true := isSpace_iff.mpr (hgap c (by simp))
      rw [List.cons_append, scan, if_pos hspace, ih (fun d hd => hgap d (by simp [hd])),
        List.length_cons]
      congr 1
      omega

/-- A lexeme that is followed by nothing that goes on with it is what the scan finds. -/
theorem scan_lexeme {kind : Kind} {text rest : List Char} (htext : IsLexeme kind text)
    (hrest : EndsBefore kind rest) (pos : Nat) :
    scan pos (text ++ rest) = foundToken kind (lexemeValue kind text) pos text rest := by
  obtain ⟨c, cs, rfl⟩ := List.exists_cons_of_ne_nil htext.ne_nil
  have hspace : isSpace c = false := htext.isSpace_eq_false (by simp)
  cases htext with
  | mark hmark =>
      have hkind := (kind_of_ofMark? hmark).2.2
      simp [scan, hspace, hmark, lexemeValue, hkind]
  | name _ hletters =>
      have hletter := hletters c (by simp)
      obtain ⟨htake, hdrop⟩ := takeWhile_append_eq hletters
        fun d hd => Bool.not_eq_true _ ▸ hrest d hd
      rw [List.cons_append] at htake hdrop ⊢
      simp [scan, hspace, ofMark?_eq_none (Or.inr (Or.inl hletter)), hletter,
        isDigit_eq_false_of_isAlpha hletter, ne_point_of_isAlpha hletter, scanName, htake, hdrop,
        lexemeValue]
  | number _ hdigits hpoint =>
      have hdigit := hdigits c (by simp)
      have hstop : ∀ d ∈ rest.head?, isLiteralChar d = false := by
        intro d hd
        rw [← Bool.not_eq_true, isLiteralChar_iff]
        exact hrest d hd
      obtain ⟨htake, hdrop⟩ := takeWhile_append_eq
        (fun d hd => isLiteralChar_of_isDigit_or (hdigits d hd)) hstop
      have hclean : literalError? false pos (c :: cs) = none :=
        literalError?_eq_none_iff.mpr ⟨hdigits, by simpa using hpoint⟩
      rw [List.cons_append] at htake hdrop ⊢
      simp [scan, hspace, ofMark?_eq_none (hdigit.imp_right Or.inr), hdigit, scanNumber, htake,
        hdrop, hclean, lexemeValue]

theorem literalError?_append {seenPoint : Bool} {pos : Nat} {text cs : List Char}
    (hdigits : ∀ c ∈ text, c.isDigit = true ∨ c = '.')
    (hpoint : text.count '.' + seenPoint.toNat ≤ 1) :
    literalError? seenPoint pos (text ++ cs) =
      literalError? (seenPoint || decide ('.' ∈ text)) (pos + text.length) cs := by
  induction text generalizing seenPoint pos with
  | nil => simp
  | cons c text ih =>
      have htail : ∀ d ∈ text, d.isDigit = true ∨ d = '.' :=
        fun d hd => hdigits d (by simp [hd])
      have hpos : pos + (text.length + 1) = pos + 1 + text.length := by omega
      by_cases hdot : c = '.'
      · subst hdot
        have hseen : seenPoint = false := by
          cases seenPoint with
          | false => rfl
          | true => simp at hpoint
        subst hseen
        have hrest : text.count '.' + true.toNat ≤ 1 := by simpa using hpoint
        simp [literalError?, ih htail hrest, hpos]
      · have hdigit : c.isDigit = true := (hdigits c (by simp)).resolve_right hdot
        have hrest : text.count '.' + seenPoint.toNat ≤ 1 := by simpa [hdot] using hpoint
        have hmem : '.' ∈ c :: text ↔ '.' ∈ text := by simp [Ne.symm hdot]
        simp [literalError?, hdigit, ih htail hrest, hpos, hmem]

/-- The fault of a literal comes from a character behind a well-formed front. -/
theorem exists_split_of_literalError? {seenPoint : Bool} {pos : Nat} {cs : List Char}
    {e : LexicalError} (h : literalError? seenPoint pos cs = some e) :
    ∃ text c rest, cs = text ++ c :: rest ∧ (∀ d ∈ text, d.isDigit = true ∨ d = '.') ∧
      text.count '.' + seenPoint.toNat ≤ 1 ∧
      ((c = '.' ∧ text.count '.' + seenPoint.toNat = 1) ∨ (c.isDigit = false ∧ c ≠ '.')) := by
  induction cs generalizing seenPoint pos with
  | nil => simp [literalError?] at h
  | cons c cs ih =>
      by_cases hdigit : c.isDigit = true
      · have hdot : c ≠ '.' := by
          rintro rfl
          exact absurd hdigit (by decide)
        rw [literalError?, if_pos hdigit] at h
        obtain ⟨text, d, rest, rfl, hdigits, hcount, hlast⟩ := ih h
        exact ⟨c :: text, d, rest, rfl, by simpa [hdigit] using hdigits,
          by simpa [hdot] using hcount, by simpa [hdot] using hlast⟩
      · by_cases hdot : c = '.'
        · subst hdot
          cases seenPoint with
          | true => exact ⟨[], '.', cs, rfl, by simp, by simp, Or.inl ⟨rfl, by simp⟩⟩
          | false =>
              rw [literalError?, if_neg hdigit, if_pos rfl] at h
              obtain ⟨text, d, rest, rfl, hdigits, hcount, hlast⟩ := ih (by simpa using h)
              exact ⟨'.' :: text, d, rest, rfl, by simpa using hdigits,
                by simpa using hcount, by simpa using hlast⟩
        · exact ⟨[], c, cs, rfl, by simp, by cases seenPoint <;> simp,
            Or.inr ⟨by simpa using hdigit, hdot⟩⟩

/-- A character that starts no lexeme is not passed over. -/
theorem scan_unexpectedCharacter {c : Char}
    (h : IsFaultAfter [] c (.unexpectedCharacter c)) (pos : Nat) (rest : List Char) :
    scan pos (c :: rest) = .failed ⟨.unexpectedCharacter c, pos⟩ pos (c :: rest) := by
  cases h with
  | unexpectedCharacter hspace hmark hliteral hpoint =>
      have hclasses : c.isAlpha = false ∧ c.isDigit = false := by
        simpa [Char.isAlphanum] using hliteral
      have hnot : isSpace c = false := by
        rw [← Bool.not_eq_true, isSpace_iff]
        exact hspace
      simp [scan, hnot, hmark, hclasses.1, hclasses.2, hpoint]

/-- A literal that is spoiled is passed over up to and including the character that spoils it. -/
theorem scan_spoiledLiteral {text : List Char} {c : Char} {fault : LexicalFault}
    (h : IsFaultAfter text c fault) (hne : text ≠ []) (pos : Nat) (rest : List Char) :
    scan pos (text ++ c :: rest) =
      .failed ⟨fault, pos + text.length⟩ (pos + text.length + 1) rest := by
  have hall : (∀ d ∈ text, d.isDigit = true ∨ d = '.') ∧ isLiteralChar c = true ∧
      literalError? false pos (text ++ c :: rest.takeWhile isLiteralChar) =
        some ⟨fault, pos + text.length⟩ := by
    cases h with
    | unexpectedCharacter => exact absurd rfl hne
    | extraPoint hdigits hpoint =>
        have hmem : '.' ∈ text := List.count_pos_iff.mp (by omega)
        refine ⟨hdigits, by decide, ?_⟩
        rw [literalError?_append hdigits (by simp [hpoint])]
        simp [literalError?, hmem]
    | strayInLiteral _ hdigits hpoint hletter =>
        have hnot := isDigit_eq_false_of_isAlpha hletter
        refine ⟨hdigits, by simp [isLiteralChar, Char.isAlphanum, hletter], ?_⟩
        rw [literalError?_append hdigits (by simpa using hpoint)]
        simp [literalError?, hnot, ne_point_of_isAlpha hletter]
  obtain ⟨hdigits, hliteral, herror⟩ := hall
  have htake : (text ++ c :: rest).takeWhile isLiteralChar =
      text ++ c :: rest.takeWhile isLiteralChar := by
    rw [List.takeWhile_append_of_pos fun d hd => isLiteralChar_of_isDigit_or (hdigits d hd),
      List.takeWhile_cons_of_pos hliteral]
  obtain ⟨d, ds, rfl⟩ := List.exists_cons_of_ne_nil hne
  have hdigit := hdigits d (by simp)
  have hclass : d.isDigit = true ∨ d.isAlpha = true ∨ d = '.' := hdigit.imp_right Or.inr
  have hpos : pos + (ds.length + 1) + 1 - pos = ds.length + 1 + 1 := by omega
  rw [List.cons_append] at htake herror ⊢
  simp [scan, isSpace_eq_false hclass, ofMark?_eq_none hclass, hdigit, scanNumber, htake, herror,
    hpos]

theorem exists_number_or_fault {c : Char} (cs : List Char)
    (hc : c.isDigit = true ∨ c = '.') :
    (∃ text rest, c :: cs = text ++ rest ∧ IsLexeme .number text ∧ EndsBefore .number rest) ∨
    (∃ text d rest fault, c :: cs = text ++ d :: rest ∧ IsFaultAfter text d fault) := by
  have hsplit : (c :: cs).takeWhile isLiteralChar ++ (c :: cs).dropWhile isLiteralChar = c :: cs :=
    List.takeWhile_append_dropWhile
  have hfirst : (c :: cs).takeWhile isLiteralChar = c :: cs.takeWhile isLiteralChar :=
    List.takeWhile_cons_of_pos (isLiteralChar_of_isDigit_or hc)
  have hends : EndsBefore .number ((c :: cs).dropWhile isLiteralChar) := by
    intro d hd
    rw [Continues, ← isLiteralChar_iff, Bool.not_eq_true]
    exact head?_dropWhile_eq_false d hd
  cases herror : literalError? false 0 ((c :: cs).takeWhile isLiteralChar) with
  | none =>
      obtain ⟨hdigits, hpoint⟩ := literalError?_eq_none_iff.mp herror
      exact Or.inl ⟨_, _, hsplit.symm, .number (by simp [hfirst]) hdigits (by simpa using hpoint),
        hends⟩
  | some e =>
      obtain ⟨text, d, rest, htext, hdigits, hcount, hlast⟩ := exists_split_of_literalError? herror
      have hmem : d ∈ (c :: cs).takeWhile isLiteralChar := by
        rw [htext]
        simp
      have hd : isLiteralChar d = true := List.mem_takeWhile_imp hmem
      have hwhole : c :: cs = text ++ d :: (rest ++ (c :: cs).dropWhile isLiteralChar) := by
        rw [htext] at hsplit
        simpa using hsplit.symm
      rcases hlast with ⟨rfl, hone⟩ | ⟨hdigit, hdot⟩
      · exact Or.inr ⟨text, '.', _, .extraPoint, hwhole, .extraPoint hdigits (by simpa using hone)⟩
      · have hletter : d.isAlpha = true := by
          simpa [isLiteralChar, Char.isAlphanum, hdigit, hdot] using hd
        have hne : text ≠ [] := by
          rintro rfl
          obtain ⟨rfl, -⟩ := List.cons.inj (hfirst.symm.trans htext)
          rcases hc with hc | hc
          · simp [hdigit] at hc
          · exact hdot hc
        exact Or.inr ⟨text, d, _, .strayInLiteral d, hwhole,
          .strayInLiteral hne hdigits (by simpa using hcount) hletter⟩

theorem exists_lexeme_or_fault {c : Char} (cs : List Char) (hspace : c ∉ spaces) :
    (∃ kind text rest, c :: cs = text ++ rest ∧ IsLexeme kind text ∧ EndsBefore kind rest) ∨
    (∃ text d rest fault, c :: cs = text ++ d :: rest ∧ IsFaultAfter text d fault) := by
  cases hmark : Kind.ofMark? c with
  | some kind => exact Or.inl ⟨kind, [c], cs, rfl, .mark hmark, endsBefore_of_ofMark? hmark cs⟩
  | none =>
      by_cases hletter : c.isAlpha = true
      · refine Or.inl ⟨.name, (c :: cs).takeWhile Char.isAlpha, (c :: cs).dropWhile Char.isAlpha,
          by simp, .name (by simp [hletter]) fun d hd => List.mem_takeWhile_imp hd, ?_⟩
        intro d hd
        simpa [Continues] using head?_dropWhile_eq_false d hd
      · by_cases hdigit : c.isDigit = true ∨ c = '.'
        · rcases exists_number_or_fault cs hdigit with ⟨text, rest, hsplit, htext, hends⟩ | h
          · exact Or.inl ⟨.number, text, rest, hsplit, htext, hends⟩
          · exact Or.inr h
        · refine Or.inr ⟨[], c, cs, .unexpectedCharacter c, rfl, ?_⟩
          refine .unexpectedCharacter hspace hmark ?_ fun h => hdigit (Or.inr h)
          simpa [Char.isAlphanum, hletter] using fun h => hdigit (Or.inl h)

/-- Behind the spaces at the front of a text stands a lexeme, nothing, or a fault. -/
theorem scan_trichotomy (cs : List Char) :
    (∃ gap kind text rest, cs = gap ++ (text ++ rest) ∧ IsGap gap ∧ IsLexeme kind text ∧
      EndsBefore kind rest) ∨
    IsGap cs ∨
    (∃ gap text c rest fault, cs = gap ++ (text ++ c :: rest) ∧ IsGap gap ∧
      IsFaultAfter text c fault) := by
  induction cs with
  | nil => exact Or.inr (Or.inl isGap_nil)
  | cons c cs ih =>
      by_cases hspace : c ∈ spaces
      · have hcons {gap : List Char} (hgap : IsGap gap) : IsGap (c :: gap) := by
          simpa [IsGap, hspace] using hgap
        rcases ih with ⟨gap, kind, text, rest, rfl, hgap, htext, hrest⟩ | hgap |
          ⟨gap, text, d, rest, fault, rfl, hgap, hfault⟩
        · exact Or.inl ⟨c :: gap, kind, text, rest, rfl, hcons hgap, htext, hrest⟩
        · exact Or.inr (Or.inl (hcons hgap))
        · exact Or.inr (Or.inr ⟨c :: gap, text, d, rest, fault, rfl, hcons hgap, hfault⟩)
      · rcases exists_lexeme_or_fault cs hspace with ⟨kind, text, rest, hsplit, htext, hends⟩ |
          ⟨text, d, rest, fault, hsplit, hfault⟩
        · exact Or.inl ⟨[], kind, text, rest, hsplit, isGap_nil, htext, hends⟩
        · exact Or.inr (Or.inr ⟨[], text, d, rest, fault, hsplit, isGap_nil, hfault⟩)

end LineCalculator
