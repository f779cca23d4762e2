import LineCalculator.Proofs.Grammar.Phrase

/-!
# What is open in the middle of a phrase

A bracket, the name of a function and a minus sign in front of an operand are open from the word on
until the sum, the argument or the operand that they stand in front of is complete.  Something can
only be opened where an operand is awaited, so the words are described up to such places: there the
number of what is open is largest, and it does not matter how long the words are or how many
operators stand between complete operands.
-/

namespace LineCalculator

/-- In the middle of a phrase of a level, behind some words, an operand is awaited, and a number of
brackets, functions and minus signs are open. -/
inductive Awaits : Level → List Word → Nat → Prop
  | start {level : Level} : Awaits level [] 0
  | operator {level tighter : Level} {op : BinaryOp} {w : Word} {ls rs : List Word} {l : Expr}
      {n : Nat} (hop : Operator level w.kind op) (htighter : tighter.Tighter level)
      (hl : Phrase level ls (some w.kind) l) (hr : Awaits tighter rs n) :
      Awaits level (ls ++ w :: rs) n
  | lift {level tighter : Level} {ws : List Word} {n : Nat} (htighter : tighter.Tighter level)
      (h : Awaits tighter ws n) : Awaits level ws n
  | negation {w : Word} {ws : List Word} {n : Nat} (hw : w.kind = .minus)
      (h : Awaits .unary ws n) : Awaits .unary (w :: ws) (n + 1)
  | group {l : Word} {r : Kind} {ws : List Word} {n : Nat} (hbrackets : Brackets l.kind r)
      (h : Awaits .sum ws n) : Awaits .term (l :: ws) (n + 1)
  | groupCall {f l : Word} {r : Kind} {ws : List Word} {n : Nat} (hf : f.NamesFunction)
      (hbrackets : Brackets l.kind r) (h : Awaits .sum ws n) : Awaits .term (f :: l :: ws) (n + 2)
  | bareCall {f : Word} {ws : List Word} {n : Nat} (hf : f.NamesFunction)
      (hopen : ∀ l r, Brackets l r → front ws ≠ some l) (h : Awaits .power ws n) :
      Awaits .term (f :: ws) (n + 1)

variable {level : Level} {w : Word} {ws : List Word} {n : Nat}

/-- A word that can open something. -/
def Word.isOpener (w : Word) : Bool :=
  w.kind.closer?.isSome || w.kind = .minus || w.kind = .name

theorem Brackets.isOpener {r : Kind} (h : Brackets w.kind r) : w.isOpener = true := by
  cases hkind : w.kind <;> rw [hkind] at h <;> cases h <;> simp [Word.isOpener, hkind, Kind.closer?]

theorem Word.NamesFunction.isOpener (h : w.NamesFunction) : w.isOpener = true := by
  simp [Word.isOpener, h.1]

/-- No more is open than words have opened something. -/
theorem Awaits.le_countP (h : Awaits level ws n) : n ≤ ws.countP Word.isOpener := by
  induction h with
  | start => exact Nat.zero_le _
  | @operator _ _ _ w ls rs _ _ _ _ _ _ ih =>
      rw [List.countP_append, List.countP_cons]
      omega
  | lift _ _ ih => exact ih
  | @negation w _ _ hw _ ih =>
      have hopener : w.isOpener = true := by simp [Word.isOpener, hw]
      rw [List.countP_cons_of_pos hopener]
      omega
  | group hbrackets _ ih =>
      rw [List.countP_cons_of_pos hbrackets.isOpener]
      omega
  | groupCall hf hbrackets _ ih =>
      rw [List.countP_cons_of_pos hf.isOpener, List.countP_cons_of_pos hbrackets.isOpener]
      omega
  | bareCall hf _ _ ih =>
      rw [List.countP_cons_of_pos hf.isOpener]
      omega

theorem front_ne_of_begins {used : List Word} (hbegins : used <+: ws)
    (hopen : ∀ l r, Brackets l r → front ws ≠ some l) :
    ∀ l r, Brackets l r → front used ≠ some l := by
  intro l r hbrackets hfront
  cases used with
  | nil => cases hfront
  | cons w used =>
      obtain ⟨more, rfl⟩ := hbegins
      exact hopen l r hbrackets hfront

/-- What is open was opened one by one: some words earlier an operand was awaited with at most one
less open. -/
theorem Awaits.exists_before (h : Awaits level ws n) (hpos : 0 < n) :
    ∃ before m, before <+: ws ∧ before.length < ws.length ∧ Awaits level before m ∧ n ≤ m + 1 := by
  induction h with
  | start => exact absurd hpos (Nat.lt_irrefl 0)
  | @operator _ _ _ w ls rs _ _ hop htighter hl _ ih =>
      obtain ⟨before, m, hbegins, hlt, hawaits, hle⟩ := ih hpos
      refine ⟨ls ++ w :: before, m, ?_, ?_, .operator hop htighter hl hawaits, hle⟩
      · exact (List.prefix_append_right_inj ls).mpr (List.cons_prefix_cons.mpr ⟨rfl, hbegins⟩)
      · simpa using hlt
  | lift htighter _ ih =>
      obtain ⟨before, m, hbegins, hlt, hawaits, hle⟩ := ih hpos
      exact ⟨before, m, hbegins, hlt, .lift htighter hawaits, hle⟩
  | @negation w ws n hw _ ih =>
      rcases Nat.eq_zero_or_pos n with rfl | hn
      · exact ⟨[], 0, List.nil_prefix, by simp, .start, Nat.le_refl _⟩
      · obtain ⟨before, m, hbegins, hlt, hawaits, hle⟩ := ih hn
        exact ⟨w :: before, m + 1, List.cons_prefix_cons.mpr ⟨rfl, hbegins⟩, by simpa using hlt,
          .negation hw hawaits, by omega⟩
  | @group l _ ws n hbrackets _ ih =>
      rcases Nat.eq_zero_or_pos n with rfl | hn
      · exact ⟨[], 0, List.nil_prefix, by simp, .start, Nat.le_refl _⟩
      · obtain ⟨before, m, hbegins, hlt, hawaits, hle⟩ := ih hn
        exact ⟨l :: before, m + 1, List.cons_prefix_cons.mpr ⟨rfl, hbegins⟩, by simpa using hlt,
          .group hbrackets hawaits, by omega⟩
  | @groupCall f l _ ws n hf hbrackets _ ih =>
      rcases Nat.eq_zero_or_pos n with rfl | hn
      · refine ⟨[f], 1, ⟨l :: ws, rfl⟩, by simp, .bareCall hf ?_ .start, Nat.le_refl _⟩
        exact fun _ _ _ => nofun
      · obtain ⟨before, m, hbegins, hlt, hawaits, hle⟩ := ih hn
        refine ⟨f :: l :: before, m + 2, ?_, by simpa using hlt, .groupCall hf hbrackets hawaits,
          by omega⟩
        exact List.cons_prefix_cons.mpr ⟨rfl, List.cons_prefix_cons.mpr ⟨rfl, hbegins⟩⟩
  | @bareCall f ws n hf hopen _ ih =>
      rcases Nat.eq_zero_or_pos n with rfl | hn
      · exact ⟨[], 0, List.nil_prefix, by simp, .start, Nat.le_refl _⟩
      · obtain ⟨before, m, hbegins, hlt, hawaits, hle⟩ := ih hn
        exact ⟨f :: before, m + 1, List.cons_prefix_cons.mpr ⟨rfl, hbegins⟩, by simpa using hlt,
          .bareCall hf (front_ne_of_begins hbegins hopen) hawaits, by omega⟩

/-! ## How much is open somewhere -/

/-- The frames that everything open takes up at most, on the way to what it is in front of. -/
def openFrames : Nat := 6

/-- Somewhere in the words of a phrase an operand is awaited where what is open may take up so many
frames. -/
def TakesUp (level : Level) (ws : List Word) (frames : Nat) : Prop :=
  ∃ used n, used <+: ws ∧ Awaits level used n ∧ frames ≤ openFrames * n

namespace TakesUp

variable {frames : Nat}

theorem zero (level : Level) (ws : List Word) : TakesUp level ws 0 :=
  ⟨[], 0, List.nil_prefix, .start, Nat.zero_le _⟩

theorem mono {more : Nat} (h : TakesUp level ws more) (hle : frames ≤ more) :
    TakesUp level ws frames := by
  obtain ⟨used, n, hbegins, hawaits, hmore⟩ := h
  exact ⟨used, n, hbegins, hawaits, Nat.le_trans hle hmore⟩

theorem operator {tighter : Level} {op : BinaryOp} {ls rs : List Word} {l : Expr}
    (h : TakesUp tighter rs frames) (hop : Operator level w.kind op)
    (htighter : tighter.Tighter level) (hl : Phrase level ls (some w.kind) l) :
    TakesUp level (ls ++ w :: rs) frames := by
  obtain ⟨used, n, hbegins, hawaits, hle⟩ := h
  refine ⟨ls ++ w :: used, n, ?_, .operator hop htighter hl hawaits, hle⟩
  exact (List.prefix_append_right_inj ls).mpr (List.cons_prefix_cons.mpr ⟨rfl, hbegins⟩)

theorem lift {tighter : Level} (h : TakesUp tighter ws frames) (htighter : tighter.Tighter level) :
    TakesUp level ws frames := by
  obtain ⟨used, n, hbegins, hawaits, hle⟩ := h
  exact ⟨used, n, hbegins, .lift htighter hawaits, hle⟩

theorem negation (h : TakesUp .unary ws frames) (hw : w.kind = .minus) :
    TakesUp .unary (w :: ws) (frames + openFrames) := by
  obtain ⟨used, n, hbegins, hawaits, hle⟩ := h
  exact ⟨w :: used, n + 1, List.cons_prefix_cons.mpr ⟨rfl, hbegins⟩, .negation hw hawaits,
    Nat.add_le_add_right hle _⟩

theorem group {r : Kind} (h : TakesUp .sum ws frames) (hbrackets : Brackets w.kind r) :
    TakesUp .term (w :: ws) (frames + openFrames) := by
  obtain ⟨used, n, hbegins, hawaits, hle⟩ := h
  exact ⟨w :: used, n + 1, List.cons_prefix_cons.mpr ⟨rfl, hbegins⟩, .group hbrackets hawaits,
    Nat.add_le_add_right hle _⟩

/-- A function takes up as much as what is open in front of which it stands. -/
theorem groupCall {f : Word} {r : Kind} (h : TakesUp .term (w :: ws) frames)
    (hf : f.NamesFunction) (hbrackets : Brackets w.kind r) :
    TakesUp .term (f :: w :: ws) (frames + openFrames) := by
  obtain ⟨used, n, hbegins, hawaits, hle⟩ := h
  have hname : w.kind ≠ .name := by
    intro hname
    rw [hname] at hbrackets
    cases hbrackets
  cases hawaits with
  | start =>
      refine ⟨[f], 1, ⟨w :: ws, rfl⟩, .bareCall hf ?_ .start, Nat.add_le_add_right hle _⟩
      exact fun _ _ _ => nofun
  | operator hop => cases hop
  | lift htighter => cases htighter
  | group hbrackets' hawaits =>
      refine ⟨f :: _ :: _, _, List.cons_prefix_cons.mpr ⟨rfl, hbegins⟩,
        .groupCall hf hbrackets' hawaits, Nat.add_le_add_right hle _⟩
  | groupCall hf' =>
      rw [(List.cons_prefix_cons.mp hbegins).1] at hf'
      exact absurd hf'.1 hname
  | bareCall hf' =>
      rw [(List.cons_prefix_cons.mp hbegins).1] at hf'
      exact absurd hf'.1 hname

theorem bareCall {f : Word} (h : TakesUp .power ws frames) (hf : f.NamesFunction)
    (hopen : ∀ l r, Brackets l r → front ws ≠ some l) :
    TakesUp .term (f :: ws) (frames + openFrames) := by
  obtain ⟨used, n, hbegins, hawaits, hle⟩ := h
  exact ⟨f :: used, n + 1, List.cons_prefix_cons.mpr ⟨rfl, hbegins⟩,
    .bareCall hf (front_ne_of_begins hbegins hopen) hawaits, Nat.add_le_add_right hle _⟩

/-- Where more frames are taken up than so many things take that are open, a word follows words
behind which so many were open. -/
theorem exists_before {k : Nat} (h : TakesUp level ws frames) (hk : openFrames * k < frames) :
    ∃ before w after n, ws = before ++ w :: after ∧ Awaits level before n ∧ k ≤ n := by
  obtain ⟨used, n, ⟨more, rfl⟩, hawaits, hle⟩ := h
  have hlt : k < n := Nat.lt_of_mul_lt_mul_left (Nat.lt_of_lt_of_le hk hle)
  obtain ⟨before, m, ⟨after, rfl⟩, hshort, hawaits', hle'⟩ :=
    hawaits.exists_before (Nat.zero_lt_of_lt hlt)
  cases after with
  | nil => simp at hshort
  | cons w after => exact ⟨before, w, after ++ more, m, by simp, hawaits', by omega⟩

end TakesUp

end LineCalculator
