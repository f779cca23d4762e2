import LineCalculator.Proofs.Reader.Soundness

/-!
# Every phrase is read

A phrase in front of words that cannot continue it is read from some depth on, by the reader of its
level.  A phrase may also be the left operand of a longer chain, so the induction says for every
level how the reader goes on behind the phrase instead of where it stops.

Together with the settled runs this decides every line: at most one tree derives from its words, and
a reader that refuses a line for another reason than depth refuses it rightly.
-/

namespace LineCalculator

/-- The reader of a level, with a limit on depth. -/
def Level.reader : Level → Nat → Parser Expr
  | .sum, d => Parser.sum (Parser.operand d)
  | .product, d => Parser.product (Parser.operand d)
  | .power, d => Parser.power (Parser.operand d)
  | .unary, d => Parser.operand d
  | .term, d => Parser.term (Parser.operand d)

/-- What the reader of a level does behind a tree that it has read. -/
def Level.goOn : Level → Nat → Nat → Expr → Parser Expr
  | .sum, d, n, e => Parser.chainFrom Parser.advance Parser.sumOp? (Level.reader .product d) n e
  | .product, d, n, e =>
    Parser.chainFrom Parser.advance Parser.productOp? (Level.reader .power d) n e
  | .power, d, n, e => Parser.chainFrom Parser.advance Parser.powerOp? (Level.reader .unary d) n e
  | .unary, _, _, e => pure e
  | .term, _, _, e => pure e

variable {d : Nat} {ws rest rest' : List Word} {ending : Option LexicalError}

/-- The reader of a level reads the words as a tree from some depth on, in front of anything that
starts with a word of the given kind. -/
def Reads (level : Level) (ws : List Word) (next : Option Kind) (e : Expr) : Prop :=
  ∃ depth, ∀ d ≥ depth, ∀ rest ending, front rest = next → IsClear rest ending →
    Runs (level.reader d) (ws ++ rest) ending (.read e) rest

/-- The reader of a level reads the words as a tree from some depth on and then goes on. -/
def Leads (level : Level) (ws : List Word) (next : Option Kind) (e : Expr) : Prop :=
  ∃ depth, ∀ d ≥ depth, ∀ rest ending, front rest = next → IsClear rest ending → ∀ v rest',
    (∀ n ≥ rest.length, Runs (level.goOn d n e) rest ending v rest') →
      Runs (level.reader d) (ws ++ rest) ending v rest'

theorem Level.goOn_eq {level tighter : Level} (hne : level ≠ .unary)
    (htighter : tighter.Tighter level) (d n : Nat) (e : Expr) :
    level.goOn d n e = Parser.chainFrom Parser.advance level.op? (tighter.reader d) n e := by
  cases htighter with
  | term => exact absurd rfl hne
  | _ => rfl

theorem Level.reader_eq {level tighter : Level} (hne : level ≠ .unary)
    (htighter : tighter.Tighter level) (d : Nat) :
    level.reader d = Parser.chain Parser.advance level.op? (tighter.reader d) := by
  cases htighter with
  | term => exact absurd rfl hne
  | _ => rfl

theorem Operator.ne_unary {level : Level} {k : Kind} {op : BinaryOp} (h : Operator level k op) :
    level ≠ .unary := by
  cases h <;> decide

theorem runs_goOn_stop {level : Level} {e : Expr} (hstops : Stops level (front ws)) (n : Nat) :
    Runs (level.goOn d n e) ws ending (.read e) ws := by
  have hchain : ∀ op? : Kind → Option BinaryOp, ∀ p, (∀ k ∈ front ws, op? k = none) →
      Runs (Parser.chainFrom Parser.advance op? p n e) ws ending (.read e) ws :=
    fun _ _ hstop => runs_chainFrom_stop hstop n
  cases level with
  | sum =>
      refine hchain _ _ ?_
      intro k hk
      rw [hk] at hstops
      cases k <;> simp_all [Stops, Parser.sumOp?]
  | product =>
      refine hchain _ _ ?_
      intro k hk
      rw [hk] at hstops
      cases k <;> simp_all [Stops, Parser.productOp?]
  | power =>
      refine hchain _ _ ?_
      intro k hk
      rw [hk] at hstops
      cases k <;> simp_all [Stops, Parser.powerOp?]
  | unary => exact .pure e
  | term => exact .pure e

theorem Leads.reads {level : Level} {next : Option Kind} {e : Expr} (h : Leads level ws next e)
    (hstops : Stops level next) : Reads level ws next e := by
  obtain ⟨depth, h⟩ := h
  refine ⟨depth, ?_⟩
  rintro d hd rest ending rfl hclear
  exact h d hd rest ending rfl hclear _ _ fun n _ => runs_goOn_stop hstops n

theorem Stops.tighter {level tighter : Level} {next : Option Kind}
    (htighter : tighter.Tighter level) (hstops : Stops level next) : Stops tighter next := by
  cases htighter <;> simp_all [Stops]

theorem stops_of_operator {level tighter : Level} {k : Kind} {op : BinaryOp}
    (hop : Operator level k op) (htighter : tighter.Tighter level) : Stops tighter (some k) := by
  cases hop <;> cases htighter <;> simp [Stops]

theorem Brackets.stops {l r : Kind} (h : Brackets l r) (level : Level) : Stops level (some r) := by
  cases h <;> cases level <;> simp [Stops]

/-! ## One lemma for each form of phrase -/

/-- Behind a term or an operand nothing goes on. -/
theorem Reads.leads {level : Level} {next : Option Kind} {e : Expr} (h : Reads level ws next e)
    (hgoOn : ∀ d n, level.goOn d n e = pure e) : Leads level ws next e := by
  obtain ⟨depth, h⟩ := h
  refine ⟨depth, ?_⟩
  intro d hd rest ending hnext hclear v rest' hgo
  have hpure := hgo rest.length (Nat.le_refl _)
  rw [hgoOn] at hpure
  obtain ⟨rfl, rfl⟩ := hpure.unique (.pure e)
  exact h d hd _ ending hnext hclear

theorem Reads.lift {level tighter : Level} {next : Option Kind} {e : Expr} (hne : level ≠ .unary)
    (htighter : tighter.Tighter level) (h : Reads tighter ws next e) : Leads level ws next e := by
  obtain ⟨depth, h⟩ := h
  refine ⟨depth, ?_⟩
  intro d hd rest ending hnext hclear v rest' hgo
  rw [Level.reader_eq hne htighter]
  refine .bind (h d hd rest ending hnext hclear) ?_
  have hchain := hgo rest.length (Nat.le_refl _)
  rw [Level.goOn_eq hne htighter] at hchain
  exact hchain

theorem Leads.binary {level tighter : Level} {op : BinaryOp} {w : Word} {ls rs : List Word}
    {next : Option Kind} {l r : Expr} (hop : Operator level w.kind op)
    (htighter : tighter.Tighter level) (hl : Leads level ls (some w.kind) l)
    (hr : Reads tighter rs next r) (hrs : rs ≠ []) :
    Leads level (ls ++ w :: rs) next (.binary op l r) := by
  obtain ⟨depth, hl⟩ := hl
  obtain ⟨depth', hr⟩ := hr
  refine ⟨max depth depth', ?_⟩
  intro d hd rest ending hnext hclear v rest' hgo
  have hclear' : IsClear (rs ++ rest) ending := fun h => absurd (List.append_eq_nil_iff.mp h).1 hrs
  rw [List.append_assoc]
  refine hl d (by omega) (w :: (rs ++ rest)) ending rfl (isClear_cons _ _ _) v rest' ?_
  intro n hn
  obtain ⟨m, rfl⟩ : ∃ m, n = m + 1 := ⟨n - 1, by simp at hn; omega⟩
  have hm : rest.length ≤ m := by
    simp only [List.length_cons, List.length_append] at hn
    omega
  have hrest := hgo m hm
  rw [Level.goOn_eq hop.ne_unary htighter] at hrest ⊢
  refine runs_chainFrom_op (Level.op?_eq_some_iff.mpr hop) (.bind (runs_advance hclear') ?_)
  exact .bind (hr d (by omega) rest ending hnext hclear) hrest

theorem Reads.negation {w : Word} {next : Option Kind} {e : Expr} (hw : w.kind = .minus)
    (h : Reads .unary ws next e) (hws : ws ≠ []) : Reads .unary (w :: ws) next (.unary .neg e) := by
  obtain ⟨depth, h⟩ := h
  refine ⟨depth + 1, ?_⟩
  intro d hd rest ending hnext hclear
  obtain ⟨k, rfl⟩ : ∃ k, d = k + 1 := ⟨d - 1, by omega⟩
  have hclear' : IsClear (ws ++ rest) ending := fun h => absurd (List.append_eq_nil_iff.mp h).1 hws
  refine .bind runs_peek ?_
  rw [if_pos (by simp [hw])]
  exact .bind (runs_advance hclear') (.bind (h k (by omega) rest ending hnext hclear) (.pure _))

theorem Reads.operand {next : Option Kind} {e : Expr} (h : Reads .term ws next e)
    (hfront : ∀ rest, front (ws ++ rest) ≠ some .minus) : Reads .unary ws next e := by
  obtain ⟨depth, h⟩ := h
  refine ⟨depth + 1, ?_⟩
  intro d hd rest ending hnext hclear
  obtain ⟨k, rfl⟩ : ∃ k, d = k + 1 := ⟨d - 1, by omega⟩
  have hminus : (ws ++ rest).head?.map Word.kind ≠ some .minus := hfront rest
  refine .bind runs_peek ?_
  rw [if_neg hminus]
  exact h k (by omega) rest ending hnext hclear

theorem runs_group {p : Parser Expr} {l r : Word} {e : Expr} (hws : ws ≠ [])
    (he : Runs (Parser.sum p) (ws ++ r :: rest) ending (.read e) (r :: rest))
    (hclear : IsClear rest ending) :
    Runs (Parser.group p r.kind) (l :: (ws ++ r :: rest)) ending (.read e) rest := by
  have hclear' : IsClear (ws ++ r :: rest) ending :=
    fun h => absurd (List.append_eq_nil_iff.mp h).1 hws
  have hexpect : Runs (Parser.expect r.kind) (r :: rest) ending (.read ()) rest := by
    refine .bind runs_peek ?_
    rw [if_pos (by simp)]
    exact runs_advance hclear
  refine .bind (runs_advance hclear') (.bind ?_ (.bind hexpect (.pure e)))
  exact .bind (runs_checkEnding hclear') he

theorem runs_term_group {p : Parser Expr} {l r : Word} {v : Verdict Expr}
    (hbrackets : Brackets l.kind r.kind)
    (h : Runs (Parser.group p r.kind) (l :: ws) ending v rest) :
    Runs (Parser.term p) (l :: ws) ending v rest := by
  refine .bind runs_peek ?_
  have hkinds : l.kind = .lparen ∧ r.kind = .rparen ∨ l.kind = .lbracket ∧ r.kind = .rbracket := by
    generalize l.kind = a, r.kind = b at hbrackets
    cases hbrackets <;> simp
  rcases hkinds with ⟨hl, hr⟩ | ⟨hl, hr⟩
  · rw [hr] at h
    simpa only [List.head?_cons, hl] using h
  · rw [hr] at h
    simpa only [List.head?_cons, hl] using h

theorem runs_term_named {p : Parser Expr} {w : Word} {v : Verdict Expr} (hw : w.kind = .name)
    (h : Runs (Parser.named p w.name) (w :: ws) ending v rest) :
    Runs (Parser.term p) (w :: ws) ending v rest := by
  refine .bind runs_peek ?_
  simpa only [List.head?_cons, hw, Word.name] using h

theorem runs_call {p : Parser Expr} {f : Word} {e : Expr} (hf : f.NamesFunction)
    (hclear : IsClear ws ending)
    (h : Runs (Parser.argument p) ws ending (.read e) rest) :
    Runs (Parser.term p) (f :: ws) ending (.read (.call f.name e)) rest := by
  obtain ⟨hw, fn, description, hlookup⟩ := hf
  refine runs_term_named hw ?_
  unfold Parser.named
  rw [hlookup]
  exact .bind (runs_advance hclear) (.bind h (.pure _))

theorem runs_constant {p : Parser Expr} {w : Word} {value : Float} (hw : w.NamesConstant value)
    (hclear : IsClear rest ending) :
    Runs (Parser.term p) (w :: rest) ending (.read (.constant w.name value)) rest := by
  obtain ⟨hw, description, hlookup⟩ := hw
  refine runs_term_named hw ?_
  unfold Parser.named
  rw [hlookup]
  exact .bind (runs_advance hclear) (.pure _)

theorem runs_number {p : Parser Expr} {w : Word} (hw : w.kind = .number)
    (hclear : IsClear rest ending) :
    Runs (Parser.term p) (w :: rest) ending (.read (.number w.value)) rest := by
  refine .bind runs_peek ?_
  simpa only [List.head?_cons, hw] using .bind (runs_advance hclear) (.pure _)

theorem Reads.group {l r : Word} {next : Option Kind} {e : Expr}
    (hbrackets : Brackets l.kind r.kind) (hws : ws ≠ []) (h : Reads .sum ws (some r.kind) e) :
    Reads .term (l :: (ws ++ [r])) next e := by
  obtain ⟨depth, h⟩ := h
  refine ⟨depth, ?_⟩
  intro d hd rest ending _ hclear
  have hsum := h d hd (r :: rest) ending rfl (isClear_cons r rest ending)
  have hsplit : l :: (ws ++ [r]) ++ rest = l :: (ws ++ r :: rest) := by simp
  rw [hsplit]
  exact runs_term_group hbrackets (runs_group hws hsum hclear)

theorem Reads.groupCall {f l r : Word} {next : Option Kind} {e : Expr} (hf : f.NamesFunction)
    (hbrackets : Brackets l.kind r.kind) (hws : ws ≠ []) (h : Reads .sum ws (some r.kind) e) :
    Reads .term (f :: l :: (ws ++ [r])) next (.call f.name e) := by
  obtain ⟨depth, h⟩ := h
  refine ⟨depth, ?_⟩
  intro d hd rest ending _ hclear
  have hsum := h d hd (r :: rest) ending rfl (isClear_cons r rest ending)
  have hsplit : f :: l :: (ws ++ [r]) ++ rest = f :: l :: (ws ++ r :: rest) := by simp
  rw [hsplit]
  refine runs_call hf (isClear_cons l _ ending) (.bind runs_peek ?_)
  have hcloser : ((l :: (ws ++ r :: rest)).head?.bind fun w => w.kind.closer?) = some r.kind :=
    closer?_eq_some_iff.mpr hbrackets
  rw [hcloser]
  exact runs_group hws hsum hclear

theorem Reads.bareCall {f : Word} {next : Option Kind} {e : Expr} (hf : f.NamesFunction)
    (hopen : ∀ l r, Brackets l r → front ws ≠ some l) (hws : ws ≠ [])
    (h : Reads .power ws next e) : Reads .term (f :: ws) next (.call f.name e) := by
  obtain ⟨depth, h⟩ := h
  refine ⟨depth, ?_⟩
  intro d hd rest ending hnext hclear
  obtain ⟨w, ws, rfl⟩ := List.exists_cons_of_ne_nil hws
  have hcloser : ((w :: (ws ++ rest)).head?.bind fun w => w.kind.closer?) = none := by
    refine Option.eq_none_iff_forall_ne_some.mpr ?_
    intro r hr
    exact hopen w.kind r (closer?_eq_some_iff.mp hr) rfl
  have hsplit : f :: (w :: ws) ++ rest = f :: w :: (ws ++ rest) := rfl
  rw [hsplit]
  refine runs_call hf (isClear_cons w _ ending) (.bind runs_peek ?_)
  rw [hcloser]
  exact h d hd rest ending hnext hclear

/-! ## Phrases and lines -/

theorem Phrase.leads {level : Level} {next : Option Kind} {e : Expr} (h : Phrase level ws next e)
    (hstops : ∀ tighter, Level.Tighter tighter level → Stops tighter next) :
    Leads level ws next e := by
  have hterm : ∀ d n e, Level.term.goOn d n e = pure e := fun _ _ _ => rfl
  have hunary : ∀ d n e, Level.unary.goOn d n e = pure e := fun _ _ _ => rfl
  induction h with
  | number hw =>
      refine Reads.leads ⟨0, ?_⟩ fun d n => hterm d n _
      exact fun _ _ _ _ _ hclear => runs_number hw hclear
  | constant hw =>
      refine Reads.leads ⟨0, ?_⟩ fun d n => hterm d n _
      exact fun _ _ _ _ _ hclear => runs_constant hw hclear
  | group hbrackets he ih =>
      have hinner := (ih fun level _ => hbrackets.stops level).reads (hbrackets.stops .sum)
      exact (Reads.group hbrackets he.ne_nil hinner).leads fun d n => hterm d n _
  | groupCall hf hbrackets he ih =>
      have hinner := (ih fun level _ => hbrackets.stops level).reads (hbrackets.stops .sum)
      exact (Reads.groupCall hf hbrackets he.ne_nil hinner).leads fun d n => hterm d n _
  | bareCall hf hopen hnext he ih =>
      have hpower : Stops .power _ := hnext
      have harg := (ih fun _ htighter => hpower.tighter htighter).reads hpower
      exact (Reads.bareCall hf hopen he.ne_nil harg).leads fun d n => hterm d n _
  | negation hw he ih =>
      have hoperand := (ih hstops).reads trivial
      exact (hoperand.negation hw he.ne_nil).leads fun d n => hunary d n _
  | binary hop htighter _ hr ihl ihr =>
      have hnext := hstops _ htighter
      have hleft := ihl fun _ htighter => stops_of_operator hop htighter
      exact hleft.binary hop htighter ((ihr fun _ h => hnext.tighter h).reads hnext) hr.ne_nil
  | @lift level tighter ws next e htighter he ih =>
      have hnext := hstops _ htighter
      have hinner := (ih fun _ h => hnext.tighter h).reads hnext
      cases htighter with
      | term =>
          refine (hinner.operand ?_).leads fun d n => hunary d n _
          intro rest hminus
          rcases he.front_term rest with h | h | ⟨l, r, hbrackets, h⟩
          · rw [h] at hminus
            cases hminus
          · rw [h] at hminus
            cases hminus
          · rw [h] at hminus
            cases hminus
            cases hbrackets
      | _ => exact hinner.lift (by decide) (by constructor)

/-- A line is read as a tree that derives from it, from some depth on. -/
theorem Derives.runs_line {t : Expr} (h : Derives ws t) :
    ∃ depth, ∀ d ≥ depth, Runs (Parser.line (Parser.operand d)) ws none (.read t) [] := by
  have hstops : Stops .sum none := by simp [Stops]
  obtain ⟨depth, hreads⟩ := (Phrase.leads h fun _ h => hstops.tighter h).reads hstops
  refine ⟨depth, ?_⟩
  intro d hd
  have hsum := hreads d hd [] none rfl fun _ => rfl
  rw [List.append_nil] at hsum
  refine .bind (.bind (runs_checkEnding fun _ => rfl) hsum) ?_
  exact .bind runs_peek (.pure t)

/-- At most one tree derives from a line. -/
theorem Derives.unique {t t' : Expr} (h : Derives ws t) (h' : Derives ws t') : t = t' := by
  obtain ⟨depth, hruns⟩ := h.runs_line
  obtain ⟨depth', hruns'⟩ := h'.runs_line
  have hsame := (hruns (max depth depth') (Nat.le_max_left _ _)).unique
    (hruns' (max depth depth') (Nat.le_max_right _ _))
  simpa using hsame.1

/-- What has failed for another reason than depth fails in front of any words that start alike, so
none of these are part of a line. -/
theorem Settles.not_derives {used more : List Word} {failure : Failure} {t : Expr}
    (h : Settles (fun d => Parser.line (Parser.operand d)) d used rest ending (.failed failure))
    (hfailure : failure ≠ .tooDeep) (hfront : SameFront rest more ending none) :
    ¬ Derives (used ++ more) t := by
  intro hderives
  obtain ⟨depth, hruns⟩ := hderives.runs_line
  have hfailed := h (max d depth) (Nat.le_max_left _ _)
    (fun hdeep => absurd (by simpa using hdeep) hfailure) more none hfront
  have hsame := (hruns (max d depth) (Nat.le_max_right _ _)).unique hfailed
  cases hsame.1

end LineCalculator
