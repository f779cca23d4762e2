import LineCalculator.Proofs.Reader.Line
import LineCalculator.Proofs.Session.Invariant

/-!
# Reading the longest phrase

A reader of a level that answers a tree has used up a phrase of its level, and no longer part of the
tokens in front of it is a phrase of this level for any tree: a longer phrase would have been read
to its end, and the run that was made stops before that.  The lexer then holds the first token that
was not used up.  All this holds of every lexer that holds a token, wherever it stands in its source.
-/

namespace LineCalculator

variable {d : Nat} {level : Level} {used rest longer ws : List Word}
  {ending : Option LexicalError} {e e' : Expr} {production : Production}

/-! ## No longer phrase -/

theorem stops_none (level : Level) : Stops level none := by
  cases level <;> simp [Stops]

/-- A phrase is read as a whole where nothing follows it. -/
theorem Phrase.reads_alone {next : Option Kind} (h : Phrase level ws next e) :
    Reads level ws none e := by
  have halone : Phrase level ws none e := h.stop (by simp)
  exact (halone.leads fun tighter _ => stops_none tighter).reads (stops_none level)

/-- Of the words that a settled run has read from, no longer part is a phrase. -/
theorem Settles.not_phrase_of_longer
    (h : Settles level.reader d used rest ending (.read e)) (hlonger : longer <+: used ++ rest)
    (hlength : used.length < longer.length) (next : Option Kind) (e' : Expr) :
    ¬ Phrase level longer next e' := by
  intro hphrase
  obtain ⟨more, rfl⟩ : used <+: longer :=
    List.prefix_of_prefix_length_le (List.prefix_append used rest) hlonger (Nat.le_of_lt hlength)
  rw [List.prefix_append_right_inj] at hlonger
  cases more with
  | nil => simp at hlength
  | cons w more =>
      -- the run and the phrase are compared on the words of the phrase alone
      have hfront : SameFront rest (w :: more) ending none := by
        obtain ⟨rest', rfl⟩ := hlonger
        exact ⟨rfl, fun hnil => by cases hnil⟩
      obtain ⟨depth, hreads⟩ := hphrase.reads_alone
      have hwhole := hreads (max d depth) (Nat.le_max_right _ _) [] none rfl fun _ => rfl
      have hstopped := h (max d depth) (Nat.le_max_left _ _) (by simp) _ _ hfront
      rw [List.append_nil] at hwhole
      cases (hwhole.unique hstopped).2

/-! ## The readers of the levels -/

/-- The level at which a production reads, unless it reads whole lines. -/
def Production.level? : Production → Option Level
  | line => none
  | expr => some .sum
  | sum => some .sum
  | product => some .product
  | power => some .power
  | unary => some .unary
  | term => some .term

theorem meets_reader (level : Level) (d : Nat) : Meets level.reader d level := by
  cases level with
  | sum => exact meets_sum (meets_operand d)
  | product => exact meets_product (meets_operand d)
  | power => exact meets_power (meets_operand d)
  | unary => exact meets_operand d
  | term => exact meets_term (meets_operand d)

/-- In front of a word a production reads as the reader of its level does. -/
theorem runs_unframed {v : Verdict Expr} (hlevel : production.level? = some level)
    (hclear : IsClear ws ending) (h : Runs (level.reader d) ws ending v rest) :
    Runs (production.procedure.unframed d) ws ending v rest := by
  cases production with
  | line => cases hlevel
  | expr =>
      cases hlevel
      exact .bind (runs_checkEnding hclear) h
  | sum | product | power | unary | term =>
      cases hlevel
      exact h

namespace Lexer

variable {l : Lexer}

/-! ## The tokens in front of a lexer -/

/-- The tokens from the one held on, up to the end of the source or a fault. -/
def stream (l : Lexer) : List Token :=
  if l.current.isFound then l.current :: (scanAll l.pos l.unread).1.map Prod.fst else []

theorem words_fst (l : Lexer) : l.words.1 = l.stream.map (Token.word l.source) := by
  obtain ⟨ps, ending, hmade⟩ := exists_isMadeOf l.pos l.unread
  rw [words, stream, hmade.scanAll_eq]
  by_cases hfound : l.current.isFound = true
  · obtain ⟨rest, hunread, -⟩ := hmade
    have hdrop : l.source.drop l.pos = spell ps rest := hunread
    rw [if_pos hfound, if_pos hfound, List.map_cons, List.map_map]
    exact congrArg _ ((words_of_texts l.pos ps).trans (words_of_spelledTokens hdrop).symm)
  · rw [if_neg hfound, if_neg hfound]
    rfl

theorem head?_getD_spelledTokens (pos : Nat) (ps : List Piece) :
    (((spelledTokens pos ps).map Prod.fst).head?).getD {} = firstToken pos ps := by
  cases ps <;> rfl

/-- After as many steps as tokens are used up the lexer holds the next of them, or none at the end
of the source. -/
theorem current_steps_of_stream {consumed left : List Token} (hfound : l.current.isFound = true)
    (hstream : l.stream = consumed ++ left) (hne : consumed ≠ []) :
    (l.steps consumed.length).current = left.head?.getD {} ∧
      (left = [] → (l.steps consumed.length).error = l.words.2) := by
  obtain ⟨ps, ending, hfaces⟩ := exists_isMadeOf l.pos l.unread
  have hwords : l.words.2 = ending := by
    rw [words, if_pos hfound, hfaces.scanAll_eq]
  rw [stream, if_pos hfound, hfaces.scanAll_eq] at hstream
  obtain ⟨t, consumed, rfl⟩ := List.exists_cons_of_ne_nil hne
  have hsplit : (spelledTokens l.pos ps).map Prod.fst = consumed ++ left :=
    (List.cons.inj hstream).2
  have hlength := congrArg List.length hsplit
  rw [List.length_map, length_spelledTokens, List.length_append] at hlength
  obtain ⟨before, after, rfl, hbefore⟩ : ∃ before after, ps = before ++ after ∧
      before.length = consumed.length :=
    ⟨ps.take consumed.length, ps.drop consumed.length, (List.take_append_drop _ ps).symm,
      List.length_take_of_le (by omega)⟩
  rw [spelledTokens_append, List.map_append] at hsplit
  obtain ⟨-, rfl⟩ := List.append_inj hsplit (by simp [length_spelledTokens, hbefore])
  have hfaces' : l.Faces (before ++ after) ending := hfaces
  rw [List.length_cons, ← hbefore]
  refine ⟨?_, ?_⟩
  · rw [hfaces'.current_steps.2, head?_getD_spelledTokens]
  · intro hnil
    have hafter : after = [] := by
      rw [← List.length_eq_zero_iff, ← length_spelledTokens (l.pos + spelledLength before) after,
        ← List.length_map (f := Prod.fst), hnil, List.length_nil]
    rw [hafter, List.append_nil] at hfaces'
    rw [hfaces'.error_steps, hwords]

/-! ## What a reader uses up -/

/-- A lexer that has moved on over some tokens, which are the longest phrase of a level at the front
of its tokens and give a tree. -/
structure HasRead (l : Lexer) (level : Level) (t : Expr) (consumed left : List Token)
    (moved : Lexer) : Prop where
  stream_eq : l.stream = consumed ++ left
  phrase : Phrase level (consumed.map (Token.word l.source))
    (front (left.map (Token.word l.source))) t
  longest : ∀ longer, longer <+: l.stream → consumed.length < longer.length →
    ∀ next e, ¬ Phrase level (longer.map (Token.word l.source)) next e
  moved_eq : moved = l.steps consumed.length
  current_eq : moved.current = left.head?.getD {}
  error_eq : left = [] → moved.error = none

/-- Reading at a level from a lexer that holds a token, if it gives a tree, uses up the longest
phrase of the level and stops right behind it. -/
theorem parse_longest [Limits] {t : Expr} (hfound : l.current.isFound = true)
    (hlevel : production.level? = some level) (h : (l.parse production).result = .ok t) :
    ∃ consumed left, l.HasRead level t consumed left (l.parse production).lexer := by
  have hclear : IsClear l.words.1 l.words.2 := by
    rw [words_fst, stream, if_pos hfound]
    exact isClear_cons _ _ _
  obtain ⟨used, rest, v, hsplit, hsettles, hright⟩ := meets_reader level Limits.levels _ _ hclear
  have hrun := hsettles.runs
  rw [← hsplit] at hrun
  have hcut : ¬ IsCut (production.parser l.input) := by
    rw [← parse_eq_tooDeep_iff, h]
    exact nofun
  obtain ⟨hresult, hlexer⟩ :=
    (parse_of_runs rfl (runs_unframed hlevel hclear hrun)).resolve_left hcut
  rw [hresult] at h
  cases v with
  | failed failure => cases failure <;> cases h
  | read e =>
      cases h
      obtain ⟨hphrase, -, hclear'⟩ := hright
      have hwords := l.words_fst
      rw [hsplit] at hwords
      obtain ⟨consumed, left, hstream, rfl, rfl⟩ := List.map_eq_append_iff.mp hwords.symm
      have hmoved : (l.parse production).lexer = l.steps consumed.length := by
        rw [hlexer, leaving, hsplit, List.length_append, List.length_map, List.length_map,
          Nat.add_sub_cancel]
      have hne : consumed ≠ [] := by
        rintro rfl
        exact hphrase.ne_nil rfl
      obtain ⟨hcurrent, herror⟩ := current_steps_of_stream hfound hstream hne
      refine ⟨consumed, left, hstream, hphrase, ?_, hmoved, ?_, ?_⟩
      · intro longer hlonger hlength
        refine hsettles.not_phrase_of_longer ?_ (by simpa using hlength)
        rw [← List.map_append, ← hstream]
        exact hlonger.map _
      · rw [hmoved, hcurrent]
      · intro hnil
        rw [hmoved, herror hnil]
        exact hclear' (by rw [hnil, List.map_nil])

/-- Behind a spoiled literal a session goes on, and a minus sign takes in a function with its power,
but not the product behind it. -/
theorem parse_longest_session :
    (session "1..-lb 2^3*4".toList (fun _ => .next) 2).current.isFound = true ∧
    ∃ consumed left, (session "1..-lb 2^3*4".toList (fun _ => .next) 2).HasRead .unary
      (.unary .neg (.call "lb" (.binary .pow (.number 2) (.number 3)))) consumed left
      ((session "1..-lb 2^3*4".toList (fun _ => .next) 2).parse .unary).lexer := by
  have hfound : (session "1..-lb 2^3*4".toList (fun _ => .next) 2).current.isFound = true := by
    decide +kernel
  exact ⟨hfound, parse_longest hfound rfl (by decide +kernel)⟩

end Lexer

end LineCalculator
