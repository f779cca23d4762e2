import Mathlib.Order.Basic
import LineCalculator.Text.Quoted

/-!
# The characters of quoted text

Quoting shows nothing invisible, and what it adds to a text are quotes, backslashes, and the letters
and digits that stand for characters which are not shown.
-/

namespace LineCalculator.Text

variable {c d : Char} {cs : List Char} {s t : String} {p : Char → Prop}

/-! ## Texts with characters of one sort -/

/-- All characters of a text have a property. -/
def AllChars (p : Char → Prop) (s : String) : Prop :=
  ∀ c ∈ s.toList, p c

instance [DecidablePred p] (s : String) : Decidable (AllChars p s) :=
  List.decidableBAll p s.toList

theorem AllChars.append (hs : AllChars p s) (ht : AllChars p t) : AllChars p (s ++ t) := by
  intro c hc
  rw [String.toList_append, List.mem_append] at hc
  exact hc.elim (hs c) (ht c)

theorem allChars_ofList (h : ∀ c ∈ cs, p c) : AllChars p (String.ofList cs) := by
  intro c hc
  rw [String.toList_ofList] at hc
  exact h c hc

/-! ## Characters that are shown -/

/-- The quotes and the character that goes in front of them inside a quoted text. -/
def quotingChars : List Char :=
  ['\'', '"', '\\']

/-- The character is shown, and it belongs to the text or may have been added by quoting it. -/
def IsShownIn (cs : List Char) (d : Char) : Prop :=
  isGraphic d = true ∧ (d ∈ cs ∨ d.isAlphanum = true ∨ d ∈ quotingChars)

theorem isGraphic_of_isAlphanum (h : d.isAlphanum = true) : isGraphic d = true := by
  unfold Char.isAlphanum Char.isAlpha Char.isUpper Char.isLower at h
  simp only [Char.isDigit, Bool.or_eq_true, Bool.and_eq_true, decide_eq_true_eq, ge_iff_le,
    UInt32.le_iff_toNat_le] at h
  change ((0x41 ≤ d.toNat ∧ d.toNat ≤ 0x5A) ∨ (0x61 ≤ d.toNat ∧ d.toNat ≤ 0x7A)) ∨
    (0x30 ≤ d.toNat ∧ d.toNat ≤ 0x39) at h
  exact (isGraphic_iff_of_lt (by omega)).mpr (by omega)

theorem isShownIn_of_isAlphanum (h : d.isAlphanum = true) : IsShownIn cs d :=
  ⟨isGraphic_of_isAlphanum h, Or.inr (Or.inl h)⟩

theorem isShownIn_of_mem_quotingChars (h : d ∈ quotingChars) : IsShownIn cs d := by
  have hgraphic : isGraphic d = true := by
    simp only [quotingChars, List.mem_cons, List.not_mem_nil, or_false] at h
    rcases h with rfl | rfl | rfl <;> decide
  exact ⟨hgraphic, Or.inr (Or.inr h)⟩

theorem chosenQuote_mem (cs : List Char) : chosenQuote cs ∈ quotingChars := by
  rw [chosenQuote]
  split <;> decide

/-! ## Code points -/

theorem isAlphanum_digitChar : ∀ n < 16, (Nat.digitChar n).isAlphanum = true := by
  decide

theorem isAlphanum_of_mem_toDigits {n : Nat} (h : d ∈ Nat.toDigits 16 n) :
    d.isAlphanum = true := by
  induction n using Nat.strongRecOn with
  | _ n ih =>
      rw [Nat.toDigits_eq_if (by decide)] at h
      by_cases hlt : n < 16
      · rw [if_pos hlt, List.mem_singleton] at h
        rw [h]
        exact isAlphanum_digitChar n hlt
      · rw [if_neg hlt, List.mem_append, List.mem_singleton] at h
        rcases h with h | h
        · exact ih (n / 16) (by omega) h
        · rw [h]
          exact isAlphanum_digitChar _ (Nat.mod_lt n (by decide))

theorem isAlphanum_of_mem_hexDigits {width n : Nat} (h : d ∈ hexDigits width n) :
    d.isAlphanum = true := by
  rw [hexDigits, List.leftpad, List.mem_append, List.mem_replicate] at h
  rcases h with ⟨-, rfl⟩ | h
  · decide
  · exact isAlphanum_of_mem_toDigits h

theorem isShownIn_of_mem_codePoint {n : Nat} (h : d ∈ codePoint n) : IsShownIn cs d := by
  have hcode : ∀ letter width, letter.isAlphanum = true →
      d ∈ '\\' :: letter :: hexDigits width n → IsShownIn cs d := by
    intro letter width hletter hd
    rw [List.mem_cons, List.mem_cons] at hd
    rcases hd with rfl | rfl | hd
    · exact isShownIn_of_mem_quotingChars (by decide)
    · exact isShownIn_of_isAlphanum hletter
    · exact isShownIn_of_isAlphanum (isAlphanum_of_mem_hexDigits hd)
  rw [codePoint] at h
  split at h
  · exact hcode 'x' 2 (by decide) h
  · split at h
    · exact hcode 'u' 4 (by decide) h
    · exact hcode 'U' 8 (by decide) h

/-! ## Quoted texts -/

theorem isShownIn_of_mem_escaped {quote : Char} (hquote : quote ∈ quotingChars) (hc : c ∈ cs)
    (h : d ∈ escaped quote c) : IsShownIn cs d := by
  have hbackslash : IsShownIn cs '\\' := isShownIn_of_mem_quotingChars (by decide)
  have hletter : ∀ letter, letter.isAlphanum = true → d ∈ ['\\', letter] → IsShownIn cs d := by
    intro letter hletter hd
    rw [List.mem_cons, List.mem_singleton] at hd
    rcases hd with rfl | rfl
    · exact hbackslash
    · exact isShownIn_of_isAlphanum hletter
  rw [escaped] at h
  split_ifs at h with hspecial htab hfeed hreturn hgraphic
  · rw [List.mem_cons, List.mem_singleton] at h
    rcases h with rfl | rfl
    · exact hbackslash
    · rcases hspecial with rfl | rfl
      · exact isShownIn_of_mem_quotingChars hquote
      · exact hbackslash
  · exact hletter 't' (by decide) h
  · exact hletter 'n' (by decide) h
  · exact hletter 'r' (by decide) h
  · rw [List.mem_singleton.mp h]
    exact ⟨hgraphic, Or.inl hc⟩
  · exact isShownIn_of_mem_codePoint h

/-- Every character of a quoted text is shown, and belongs to the text or was added by quoting. -/
theorem isShownIn_of_mem_quotedChars (h : d ∈ quotedChars cs) : IsShownIn cs d := by
  have hquote := chosenQuote_mem cs
  rw [quotedChars, List.mem_cons, List.mem_append, List.mem_singleton] at h
  rcases h with rfl | h | rfl
  · exact isShownIn_of_mem_quotingChars hquote
  · obtain ⟨c, hc, hd⟩ := List.mem_flatMap.mp h
    exact isShownIn_of_mem_escaped hquote hc hd
  · exact isShownIn_of_mem_quotingChars hquote

theorem allChars_quotedChar (h : ∀ d, IsShownIn [c] d → p d) : AllChars p (quotedChar c) :=
  allChars_ofList fun d hd => h d (isShownIn_of_mem_quotedChars hd)

end LineCalculator.Text
