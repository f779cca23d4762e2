import LineCalculator.Calculator
import LineCalculator.CommandLine.Calculate
import LineCalculator.Proofs.Number.Numeral

/-!
# What is shown

Sequences that steer a terminal start with an escape character, so a line without one is shown as it
is.  No number has one.  Records are told apart from lines of text and of complaint.
-/

namespace LineCalculator.CommandLine

/-- The character that starts a sequence that steers a terminal. -/
def escape : Char := '\x1b'

/-! ## Lines without escape characters -/

/-- A bracket steers a terminal only behind an escape character. -/
theorem plainWithin_cons {c : Char} (h : c ≠ escape) (fuel : Nat) (cs : List Char) :
    plainWithin (fuel + 1) (c :: cs) = c :: plainWithin fuel cs := by
  have hcode : c.toNat ≠ 27 := fun hcode => h (Char.toNat_inj.mp hcode)
  by_cases hbracket : ∃ rest, cs = '[' :: rest
  · obtain ⟨rest, rfl⟩ := hbracket
    rw [plainWithin, if_neg hcode]
  · rw [plainWithin]
    exact fun rest hrest => hbracket ⟨rest, hrest⟩

theorem plainWithin_append {cs : List Char} (h : escape ∉ cs) (fuel : Nat) (rest : List Char) :
    plainWithin (cs.length + fuel) (cs ++ rest) = cs ++ plainWithin fuel rest := by
  induction cs with
  | nil => rw [List.length_nil, Nat.zero_add, List.nil_append, List.nil_append]
  | cons c cs ih =>
      obtain ⟨hc, hcs⟩ : escape ≠ c ∧ escape ∉ cs := by simpa using h
      rw [List.length_cons, Nat.add_right_comm, List.cons_append, plainWithin_cons hc.symm, ih hcs,
        List.cons_append]

/-- What stands in front of the first escape character is shown as it is. -/
theorem plain_append {text : String} (h : escape ∉ text.toList) (rest : String) :
    plain (text ++ rest) = text ++ plain rest := by
  rw [plain, plain, String.toList_append, List.length_append, plainWithin_append h,
    String.ofList_append, String.ofList_toList]

theorem plain_eq_self {text : String} (h : escape ∉ text.toList) : plain text = text := by
  have hplain := plain_append h ""
  rw [String.append_empty] at hplain
  exact hplain.trans String.append_empty

/-! ## Numbers -/

theorem mem_fixedChars {places n : Nat} {c : Char} (h : c ∈ Decimal.fixedChars places n) :
    c.isDigit = true ∨ c = '.' := by
  rw [Decimal.fixedChars, List.mem_append] at h
  rcases h with h | h
  · exact Or.inl (Decimal.isDigit_of_mem_leftpad (List.mem_of_mem_take h))
  · by_cases hplaces : places = 0
    · simp [hplaces] at h
    · rw [if_neg hplaces, List.mem_cons] at h
      exact h.symm.imp_left fun h => Decimal.isDigit_of_mem_leftpad (List.mem_of_mem_drop h)

theorem escape_notMem_signed (isSigned : Bool) (places n : Nat) :
    escape ∉ (if isSigned then ['-'] else []) ++ Decimal.fixedChars places n := by
  intro h
  rw [List.mem_append] at h
  rcases h with h | h
  · cases isSigned with
    | true => exact absurd h (by decide)
    | false => cases h
  · exact absurd (mem_fixedChars h) (by decide)

/-- With a number of places in range every value can be printed, and nothing else than such a number
is needed. -/
theorem exists_fixedPoint {places : Int} (hmin : 0 ≤ places) (hmax : places ≤ mostPlaces)
    (x : Float) : ∃ v, fixedPoint places x = .ok v := by
  rw [fixedPoint]
  by_cases hnan : x.isNaN
  · exact ⟨_, if_pos hnan⟩
  · rw [if_neg hnan]
    by_cases hinf : x.isInf
    · exact ⟨_, if_pos hinf⟩
    · rw [if_neg hinf, if_neg (Int.not_lt.mpr hmin), if_neg (Int.not_lt.mpr hmax)]
      exact ⟨_, rfl⟩

theorem escape_notMem_fixedPoint {places : Int} {x : Float} {v : String}
    (h : fixedPoint places x = .ok v) : escape ∉ v.toList := by
  unfold fixedPoint at h
  split at h
  · cases h
    decide
  · split at h
    · cases h
      split <;> decide
    · split at h
      · cases h
      · split at h
        · cases h
        · cases h
          rw [String.toList_ofList]
          split
          · exact escape_notMem_signed _ _ _
          · exact escape_notMem_signed _ _ _

/-! ## Lines with results -/

/-- A source without escape characters is shown with its value as it is. -/
theorem resultLine_eq {source : List Char} {places : Int} {x : Float} {v : String}
    (hsource : escape ∉ source) (hv : fixedPoint places x = .ok v) :
    resultLine source v =
      .text ("result of equation '" ++ String.ofList source ++ "' = " ++ v ++ "\n") := by
  have hline : escape ∉ ("result of equation '" ++ String.ofList source ++ "' = " ++ v).toList := by
    have hbefore : escape ∉ "result of equation '".toList := by decide
    have hbetween : escape ∉ "' = ".toList := by decide
    simp only [String.toList_append, String.toList_ofList, List.mem_append, hbefore, hbetween,
      hsource, escape_notMem_fixedPoint hv, or_self, not_false_eq_true]
  rw [resultLine, say, plain_eq_self hline]

/-! ## Texts and records -/

variable {log : List Record} {least : Severity} {events : List Event} {ending : Ending}

theorem filterMap_told {α : Type} {f : Event → Option α}
    (h : ∀ record, f (.record record) = none) :
    (told least log ++ events).filterMap f = events.filterMap f := by
  have hnone : (told least log).filterMap f = [] := by
    rw [told, List.filterMap_map, List.filterMap_eq_nil_iff]
    exact fun record _ => h record
  rw [List.filterMap_append, hnone, List.nil_append]

theorem texts_told :
    (Output.mk (told least log ++ events) ending).texts = (Output.mk events ending).texts := by
  rw [Output.texts, filterMap_told fun _ => rfl]
  rfl

theorem records_told :
    (Output.mk (told least log ++ events) ending).records =
      log.filter (fun record => record.reaches least) ++ (Output.mk events ending).records := by
  rw [Output.records, List.filterMap_append, told, List.filterMap_map]
  congr 1
  exact List.filterMap_some

theorem complaints_told : (Output.mk (told least log ++ events) ending).complaints =
    (Output.mk events ending).complaints := by
  rw [Output.complaints, filterMap_told fun _ => rfl]
  rfl

theorem texts_line (shown : String) : (Output.mk [.text shown] ending).texts = shown := by
  simp [Output.texts]

theorem texts_complain (message : String) : (Output.mk [complain message] ending).texts = "" :=
  rfl

/-- A complaint is one line that says that there is an error. -/
theorem complaints_complain (message : String) :
    (Output.mk [complain message] ending).complaints = "Error: " ++ plain message ++ "\n" := by
  have hescape : escape ∉ "Error: ".toList := by decide
  rw [complain, plain_append hescape]
  simp [Output.complaints]

end LineCalculator.CommandLine
