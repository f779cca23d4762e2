import LineCalculator.Proofs.Reader.Levels
import LineCalculator.Proofs.Reader.Settled

/-!
# Every run is settled and right

One lemma for each way of combining readers, under the hypothesis that the readers one level down
meet their level, and an induction on the depth that closes the circle.
-/

namespace LineCalculator

variable {d : Nat} {used rest ws : List Word} {ending : Option LexicalError}

/-! ## Chains of operators -/

/-- The operators of a level as the parser knows them. -/
def Level.op? : Level → Kind → Option BinaryOp
  | .sum => Parser.sumOp?
  | .product => Parser.productOp?
  | .power => Parser.powerOp?
  | .unary => fun _ => none
  | .term => fun _ => none

theorem Level.op?_eq_some_iff {level : Level} {k : Kind} {op : BinaryOp} :
    level.op? k = some op ↔ Operator level k op := by
  constructor
  · intro h
    cases level with
    | sum => cases k <;> cases h <;> constructor
    | product => cases k <;> cases h <;> constructor
    | power =>
        cases k <;> cases h
        constructor
    | unary => cases h
    | term => cases h
  · intro h
    cases h <;> rfl

theorem stops_of_op?_eq_none {level tighter : Level} {next : Option Kind}
    (htighter : tighter.Tighter level) (hstops : Stops tighter next)
    (hop : ∀ k ∈ next, level.op? k = none) : Stops level next := by
  cases next with
  | none => cases htighter <;> simp [Stops]
  | some k =>
      have hk := hop k rfl
      cases htighter <;> cases k <;> simp_all [Stops, Level.op?, Parser.sumOp?,
        Parser.productOp?, Parser.powerOp?]

theorem runs_chainFrom_stop {op? : Kind → Option BinaryOp} {p : Parser Expr} {left : Expr}
    (hstop : ∀ k ∈ front ws, op? k = none) (n : Nat) :
    Runs (Parser.chainFrom Parser.advance op? p n left) ws ending (.read left) ws := by
  cases n with
  | zero => exact .pure left
  | succ n =>
      have hnone : (ws.head?.bind fun w => op? w.kind) = none := by
        cases ws with
        | nil => rfl
        | cons w ws => exact hstop w.kind rfl
      refine .bind runs_peek ?_
      rw [hnone]
      exact .pure left

theorem runs_chainFrom_op {op? : Kind → Option BinaryOp} {p : Parser Expr} {left : Expr}
    {w : Word} {op : BinaryOp} {v : Verdict Expr} {n : Nat} (hop : op? w.kind = some op)
    (h : Runs (Parser.advance >>= fun _ => p >>= fun right =>
      Parser.chainFrom Parser.advance op? p n (.binary op left right)) (w :: ws) ending v rest) :
    Runs (Parser.chainFrom Parser.advance op? p (n + 1) left) (w :: ws) ending v rest := by
  have hsome : ((w :: ws).head?.bind fun w => op? w.kind) = some op := hop
  refine .bind runs_peek ?_
  rw [hsome]
  exact h

/-- The runs of a chain behind its first operand are settled, with any fuel that is enough for the
words. -/
def ChainSettles (op? : Kind → Option BinaryOp) (q : Nat → Parser Expr) (d : Nat) (left : Expr)
    (used rest : List Word) (ending : Option LexicalError) (v : Verdict Expr) : Prop :=
  ∀ d' ≥ d, (v = .failed .tooDeep → d' = d) → ∀ rest' ending', SameFront rest rest' ending ending' →
    ∀ n ≥ (used ++ rest').length,
      Runs (Parser.chainFrom Parser.advance op? (q d') n left) (used ++ rest') ending' v rest'

section Chain

variable {op? : Kind → Option BinaryOp} {q : Nat → Parser Expr} {left : Expr} {w : Word}
  {op : BinaryOp}

theorem chainSettles_stop (hstop : ∀ k ∈ front rest, op? k = none) :
    ChainSettles op? q d left [] rest ending (.read left) := by
  intro d' _ _ rest' ending' hfront n _
  refine runs_chainFrom_stop ?_ n
  intro k hk
  refine hstop k ?_
  rwa [front, hfront.head?_eq]

theorem chainSettles_advance_failed (hop : op? w.kind = some op) (e : LexicalError) :
    ChainSettles op? q d left [w] [] (some e) (.failed (.lexical e)) := by
  intro d' hd hdeep rest' ending' hfront n hn
  obtain ⟨m, rfl⟩ : ∃ m, n = m + 1 := ⟨n - 1, by simp at hn; omega⟩
  exact runs_chainFrom_op hop (settles_advance_failed w e d' hd (by simp) _ _ hfront).bind_failed

theorem chainSettles_operand_failed {failure : Failure} (hop : op? w.kind = some op)
    (hclear : IsClear (used ++ rest) ending)
    (hq : Settles q d used rest ending (.failed failure)) :
    ChainSettles op? q d left (w :: used) rest ending (.failed failure) := by
  intro d' hd hdeep rest' ending' hfront n hn
  obtain ⟨m, rfl⟩ : ∃ m, n = m + 1 := ⟨n - 1, by simp at hn; omega⟩
  refine runs_chainFrom_op hop (.bind (runs_advance ((hfront.append used).isClear hclear)) ?_)
  exact (hq d' hd (by simpa using hdeep) _ _ hfront).bind_failed

theorem chainSettles_op {used' : List Word} {right : Expr} {v : Verdict Expr}
    (hop : op? w.kind = some op) (hclear : IsClear (used ++ (used' ++ rest)) ending)
    (hq : Settles q d used (used' ++ rest) ending (.read right))
    (hchain : ChainSettles op? q d (.binary op left right) used' rest ending v) :
    ChainSettles op? q d left (w :: (used ++ used')) rest ending v := by
  intro d' hd hdeep rest' ending' hfront n hn
  obtain ⟨m, rfl⟩ : ∃ m, n = m + 1 := ⟨n - 1, by simp at hn; omega⟩
  have hfront' := hfront.append used'
  rw [List.cons_append, List.append_assoc]
  refine runs_chainFrom_op hop (.bind (runs_advance ((hfront'.append used).isClear hclear)) ?_)
  refine .bind (hq d' hd (by simp) _ _ hfront') (hchain d' hd hdeep _ _ hfront m ?_)
  simp only [List.cons_append, List.length_cons, List.length_append] at hn ⊢
  omega

/-- Behind a first operand a chain is settled, and its verdict is right for the operand together
with what the chain used up. -/
theorem exists_chainSettles {level tighter : Level} (htighter : tighter.Tighter level)
    (hq : Meets q d tighter) {before : List Word} (hclear : IsClear ws ending)
    (hleft : Phrase level before (front ws) left) (hstops : Stops tighter (front ws)) :
    ∃ used rest v, ws = used ++ rest ∧ ChainSettles level.op? q d left used rest ending v ∧
      v.IsRight level (before ++ used) rest ending := by
  induction hn : ws.length using Nat.strongRecOn generalizing ws before left with
  | ind n ih =>
      subst hn
      by_cases hop : ∃ w ws' op, ws = w :: ws' ∧ level.op? w.kind = some op
      · obtain ⟨w, ws', op, rfl, hop⟩ := hop
        have hop' := Level.op?_eq_some_iff.mp hop
        rcases isClear_or_failed ws' ending with hclear' | ⟨e, rfl, rfl⟩
        · obtain ⟨used, rest, v, rfl, hsettles, hright⟩ := hq ws' ending hclear'
          cases v with
          | failed failure =>
              refine ⟨w :: used, rest, _, rfl, chainSettles_operand_failed hop hclear' hsettles, ?_⟩
              exact hright.imp (.binary hop' htighter hleft)
          | read right =>
              obtain ⟨hphrase, hstops', hclear''⟩ := hright
              have hlt : rest.length < (w :: (used ++ rest)).length := by
                simp only [List.length_cons, List.length_append]
                omega
              obtain ⟨used', rest', v, rfl, hchain, hright⟩ :=
                ih rest.length hlt hclear''
                  (.binary hop' htighter hleft hphrase) hstops' rfl
              refine ⟨w :: (used ++ used'), rest', v, by simp,
                chainSettles_op hop hclear' hsettles hchain, ?_⟩
              simpa using hright
        · refine ⟨[w], [], _, rfl, chainSettles_advance_failed hop e, ?_⟩
          exact .lexical (.binary hop' htighter hleft (completable_nil tighter)) rfl rfl
      · have hstop : ∀ k ∈ front ws, level.op? k = none := by
          intro k hk
          cases ws with
          | nil => cases hk
          | cons w ws' =>
              cases hk
              exact Option.eq_none_iff_forall_ne_some.mpr fun op h => hop ⟨w, ws', op, rfl, h⟩
        refine ⟨[], ws, .read left, rfl, chainSettles_stop hstop, ?_⟩
        exact ⟨by simpa using hleft, stops_of_op?_eq_none htighter hstops hstop, hclear⟩

/-- A chain of operands that meet their level meets the level of its operators. -/
theorem Meets.chain {level tighter : Level} (htighter : tighter.Tighter level)
    (hq : Meets q d tighter) :
    Meets (fun d => Parser.chain Parser.advance level.op? (q d)) d level := by
  intro ws ending hclear
  obtain ⟨used, rest, v, rfl, hsettles, hright⟩ := hq ws ending hclear
  cases v with
  | failed failure =>
      exact ⟨used, rest, _, rfl, hsettles.bind_failed, hright.imp (.lift htighter)⟩
  | read left =>
      obtain ⟨hphrase, hstops, hclear'⟩ := hright
      obtain ⟨used', rest', v, rfl, hchain, hright⟩ :=
        exists_chainSettles htighter hq hclear' (.lift htighter hphrase) hstops
      refine ⟨used ++ used', rest', v, by simp, hsettles.bind rfl ?_, hright⟩
      intro d' hd hdeep rest'' ending' hfront refusals
      exact hchain d' hd hdeep rest'' ending' hfront _ (Nat.le_refl _) refusals

end Chain

theorem meets_power {q : Nat → Parser Expr} (hq : Meets q d .unary) :
    Meets (fun d => Parser.power (q d)) d .power :=
  hq.chain .unary

theorem meets_product {q : Nat → Parser Expr} (hq : Meets q d .unary) :
    Meets (fun d => Parser.product (q d)) d .product :=
  (meets_power hq).chain .power

theorem meets_sum {q : Nat → Parser Expr} (hq : Meets q d .unary) :
    Meets (fun d => Parser.sum (q d)) d .sum :=
  (meets_product hq).chain .product

theorem meets_expr {q : Nat → Parser Expr} (hq : Meets q d .unary) :
    Meets (fun d => Parser.expr (q d)) d .sum := by
  intro ws ending hclear
  obtain ⟨used, rest, v, rfl, hsettles, hright⟩ := meets_sum hq ws ending hclear
  exact ⟨used, rest, v, rfl, (settles_checkEnding hclear).bind rfl hsettles, hright⟩

/-! ## Groups and calls -/

theorem closer?_eq_some_iff {l r : Kind} : l.closer? = some r ↔ Brackets l r := by
  constructor
  · intro h
    cases l <;> cases h <;> constructor
  · intro h
    cases h <;> rfl

theorem settles_expect {r : Word} {closer : Kind} (hr : r.kind = closer)
    (hclear : IsClear rest ending) :
    Settles (fun _ => Parser.expect closer) d [r] rest ending (.read ()) := by
  intro d' hd hdeep rest' ending' hfront
  refine .bind runs_peek ?_
  rw [if_pos (by simp [hr])]
  exact settles_advance r hclear d' hd hdeep rest' ending' hfront

theorem settles_expect_failed {r : Word} {closer : Kind} (hr : r.kind = closer)
    (e : LexicalError) :
    Settles (fun _ => Parser.expect closer) d [r] [] (some e) (.failed (.lexical e)) := by
  intro d' hd hdeep rest' ending' hfront
  refine .bind runs_peek ?_
  rw [if_pos (by simp [hr])]
  exact settles_advance_failed r e d' hd hdeep rest' ending' hfront

theorem settles_expect_refused {closer : Kind} (hfront : front rest ≠ some closer) :
    Settles (fun _ => Parser.expect closer) d [] rest ending
      (.failed (.refused (.expected closer rest.head?))) := by
  intro d' _ _ rest' ending' hsame
  have hfront' : rest'.head?.map Word.kind ≠ some closer := by
    rwa [front, hsame.head?_eq] at hfront
  refine .bind runs_peek ?_
  rw [hsame.head?_eq, List.nil_append, if_neg hfront']
  exact runs_refuse _

/-- Words that begin a bracketed sum, or are a whole one in front of a lexical fault. -/
def BeginsGroup (l : Word) (used : List Word) : Prop :=
  (∃ inner, used = l :: inner ∧ Completable .sum inner) ∨
    ∃ inner r e, used = l :: (inner ++ [r]) ∧ Brackets l.kind r.kind ∧
      Phrase .sum inner (some r.kind) e

/-- What the verdict of a reader of groups says about the words that it used up. -/
def Verdict.IsRightGroup (l : Word) (used rest : List Word) (ending : Option LexicalError) :
    Verdict Expr → Prop
  | .read e => IsClear rest ending ∧ ∃ inner r, used = l :: (inner ++ [r]) ∧
      Brackets l.kind r.kind ∧ Phrase .sum inner (some r.kind) e
  | .failed failure => FailsAt (BeginsGroup l used) rest ending failure

section Operands

variable {q : Nat → Parser Expr}

theorem exists_settles_group {l : Word} {closer : Kind} (hbrackets : Brackets l.kind closer)
    (hq : Meets q d .unary) (ws : List Word) (ending : Option LexicalError) :
    ∃ used rest v, l :: ws = used ++ rest ∧
      Settles (fun d => Parser.group (q d) closer) d used rest ending v ∧
      v.IsRightGroup l used rest ending := by
  rcases isClear_or_failed ws ending with hclear | ⟨e, rfl, rfl⟩
  · obtain ⟨inner, rest, v, rfl, hsettles, hright⟩ := meets_expr hq ws ending hclear
    have hopen := settles_advance (d := d) l hclear
    cases v with
    | failed failure =>
        exact ⟨[l] ++ inner, rest, _, by simp, hopen.bind rfl hsettles.bind_failed,
          hright.imp fun h => Or.inl ⟨inner, rfl, h⟩⟩
    | read e =>
        obtain ⟨hphrase, -, hclear'⟩ := hright
        by_cases hcloser : front rest = some closer
        · obtain ⟨r, rest, rfl⟩ : ∃ r rest', rest = r :: rest' := by
            cases rest with
            | nil => cases hcloser
            | cons r rest => exact ⟨r, rest, rfl⟩
          have hr : r.kind = closer := by simpa [front] using hcloser
          subst hr
          have hinner : Phrase .sum inner (some r.kind) e :=
            hphrase.stop hbrackets.right_ne_caret
          rcases isClear_or_failed rest ending with hclear'' | ⟨error, rfl, rfl⟩
          · have hclose : Settles
                (fun _ => Parser.expect r.kind >>= fun _ => (pure e : Parser Expr)) d [r] rest
                ending (.read e) :=
              (settles_expect rfl hclear'').bind_nil (settles_pure e)
            exact ⟨l :: (inner ++ [r]), rest, .read e, by simp,
              hopen.bind (by simp) (hsettles.bind rfl hclose),
              hclear'', inner, r, rfl, hbrackets, hinner⟩
          · have hclose := settles_expect_failed (d := d) (r := r) rfl error
            exact ⟨l :: (inner ++ [r]), [], .failed (.lexical error), by simp,
              hopen.bind (by simp) (hsettles.bind rfl hclose.bind_failed),
              .lexical (Or.inr ⟨inner, r, e, rfl, hbrackets, hinner⟩) rfl rfl⟩
        · have hclose : Settles (fun _ => Parser.expect closer) d [] rest ending
              (.failed (.refused (.expected closer rest.head?))) := settles_expect_refused hcloser
          exact ⟨l :: inner, rest, .failed (.refused (.expected closer rest.head?)), rfl,
            hopen.bind rfl (hsettles.bind_nil hclose.bind_failed),
            .refused (Or.inl ⟨inner, rfl, hphrase.completable⟩) hclear'⟩
  · exact ⟨[l], [], _, rfl, (settles_advance_failed l e).bind_failed,
      .lexical (Or.inl ⟨[], rfl, completable_nil .sum⟩) rfl rfl⟩

theorem BeginsGroup.completable {l : Word} {closer : Kind} (hbrackets : Brackets l.kind closer)
    (h : BeginsGroup l used) : Completable .term used := by
  rcases h with ⟨inner, rfl, hinner⟩ | ⟨inner, r, e, rfl, hbrackets', hinner⟩
  · exact .group hbrackets hinner
  · have hphrase : Phrase .term (l :: (inner ++ [r])) none e := .group hbrackets' hinner
    exact hphrase.completable

theorem BeginsGroup.completable_call {f l : Word} {closer : Kind} (hf : f.NamesFunction)
    (hbrackets : Brackets l.kind closer) (h : BeginsGroup l used) :
    Completable .term (f :: used) := by
  rcases h with ⟨inner, rfl, hinner⟩ | ⟨inner, r, e, rfl, hbrackets', hinner⟩
  · exact .groupCall hf hbrackets hinner
  · have hphrase : Phrase .term (f :: l :: (inner ++ [r])) none (.call f.name e) :=
      .groupCall hf hbrackets' hinner
    exact hphrase.completable

/-- What the verdict of a reader of arguments says about the words that it used up behind the name
of a function. -/
def Verdict.IsRightCall (f : Word) (used rest : List Word) (ending : Option LexicalError) :
    Verdict Expr → Prop
  | .read e => Phrase .term (f :: used) (front rest) (.call f.name e) ∧ IsClear rest ending
  | .failed failure => FailsAt (Completable .term (f :: used)) rest ending failure

theorem exists_settles_argument {f : Word} (hf : f.NamesFunction) (hq : Meets q d .unary)
    (hclear : IsClear ws ending) :
    ∃ used rest v, ws = used ++ rest ∧
      Settles (fun d => Parser.argument (q d)) d used rest ending v ∧
      v.IsRightCall f used rest ending := by
  cases hcloser : ws.head?.bind fun w => w.kind.closer? with
  | some closer =>
      obtain ⟨l, ws', rfl⟩ : ∃ l ws', ws = l :: ws' := by
        cases ws with
        | nil => cases hcloser
        | cons l ws' => exact ⟨l, ws', rfl⟩
      have hbrackets : Brackets l.kind closer := closer?_eq_some_iff.mp hcloser
      obtain ⟨used, rest, v, hsplit, hsettles, hright⟩ :=
        exists_settles_group hbrackets hq ws' ending
      refine ⟨used, rest, v, hsplit, settles_peek rfl ?_, ?_⟩
      · simpa only [← hsplit, hcloser] using hsettles
      · cases v with
        | read e =>
            obtain ⟨hclear', inner, r, rfl, hbrackets', hinner⟩ := hright
            exact ⟨.groupCall hf hbrackets' hinner, hclear'⟩
        | failed failure => exact hright.imp fun h => h.completable_call hf hbrackets
  | none =>
      obtain ⟨used, rest, v, rfl, hsettles, hright⟩ := meets_power hq ws ending hclear
      have hopen : ∀ l r, Brackets l r → front used ≠ some l := by
        intro l r hbrackets hfront
        cases used with
        | nil => cases hfront
        | cons w used =>
            have hw : w.kind = l := by simpa [front] using hfront
            have hnone : w.kind.closer? = none := hcloser
            rw [hw, closer?_eq_some_iff.mpr hbrackets] at hnone
            cases hnone
      refine ⟨used, rest, v, rfl, settles_peek rfl ?_, ?_⟩
      · simpa only [hcloser] using hsettles
      · cases v with
        | read e =>
            obtain ⟨hphrase, hstops, hclear'⟩ := hright
            exact ⟨.bareCall hf hopen hstops hphrase, hclear'⟩
        | failed failure => exact hright.imp fun h => h.bareCall hf hopen

/-- Reading a word that stands for itself. -/
theorem exists_settles_word {w : Word} {e : Expr}
    (hw : ∀ next, Phrase .term [w] next e) (ws : List Word) (ending : Option LexicalError) :
    ∃ used rest v, w :: ws = used ++ rest ∧
      Settles (fun _ => Parser.advance >>= fun _ => (pure e : Parser Expr)) d used rest ending v ∧
      v.IsRight .term used rest ending := by
  rcases isClear_or_failed ws ending with hclear | ⟨error, rfl, rfl⟩
  · exact ⟨[w] ++ [], ws, .read e, rfl, (settles_advance w hclear).bind rfl (settles_pure e),
      hw _, trivial, hclear⟩
  · exact ⟨[w], [], _, rfl, (settles_advance_failed w error).bind_failed,
      .lexical (hw none).completable rfl rfl⟩

theorem exists_settles_named {w : Word} (hw : w.kind = .name) (hq : Meets q d .unary)
    (ws : List Word) (ending : Option LexicalError) :
    ∃ used rest v, w :: ws = used ++ rest ∧
      Settles (fun d => Parser.named (q d) w.name) d used rest ending v ∧
      v.IsRight .term used rest ending := by
  unfold Parser.named
  cases hlookup : Names.lookup w.name with
  | none =>
      exact ⟨[], w :: ws, _, rfl, settles_refuse _,
        .refused (completable_nil .term) (isClear_cons w ws ending)⟩
  | some entry =>
      cases entry with
      | constant value description =>
          exact exists_settles_word (fun next => .constant ⟨hw, description, hlookup⟩) ws ending
      | function fn description =>
          have hf : w.NamesFunction := ⟨hw, fn, description, hlookup⟩
          rcases isClear_or_failed ws ending with hclear | ⟨error, rfl, rfl⟩
          · obtain ⟨used, rest, v, rfl, hsettles, hright⟩ := exists_settles_argument hf hq hclear
            have hadvance := settles_advance (d := d) w hclear
            cases v with
            | read e =>
                exact ⟨w :: used, rest, .read (.call w.name e), rfl,
                  hadvance.bind rfl (hsettles.bind_nil (settles_pure _)),
                  hright.1, trivial, hright.2⟩
            | failed failure =>
                exact ⟨[w] ++ used, rest, _, rfl, hadvance.bind rfl hsettles.bind_failed, hright⟩
          · exact ⟨[w], [], _, rfl, (settles_advance_failed w error).bind_failed,
              .lexical (completable_function hf) rfl rfl⟩

/-- What a reader does after a look at the first word is decided by that word. -/
theorem exists_settles_peek {level : Level} {f : Nat → Option Word → Parser Expr} {w : Word}
    (h : ∃ used rest v, w :: ws = used ++ rest ∧
      Settles (fun d => f d (some w)) d used rest ending v ∧ v.IsRight level used rest ending) :
    ∃ used rest v, w :: ws = used ++ rest ∧
      Settles (fun d => Parser.peek >>= f d) d used rest ending v ∧
      v.IsRight level used rest ending := by
  obtain ⟨used, rest, v, hsplit, hsettles, hright⟩ := h
  exact ⟨used, rest, v, hsplit, settles_peek (hsplit ▸ rfl) hsettles, hright⟩

theorem meets_term (hq : Meets q d .unary) : Meets (fun d => Parser.term (q d)) d .term := by
  intro ws ending hclear
  cases ws with
  | nil =>
      exact ⟨[], [], _, rfl, settles_peek rfl (settles_refuse _),
        .refused (completable_nil .term) hclear⟩
  | cons w ws =>
      have hgroup : ∀ closer, Brackets w.kind closer → ∃ used rest v, w :: ws = used ++ rest ∧
          Settles (fun d => Parser.group (q d) closer) d used rest ending v ∧
          v.IsRight .term used rest ending := by
        intro closer hbrackets
        obtain ⟨used, rest, v, hsplit, hsettles, hright⟩ :=
          exists_settles_group hbrackets hq ws ending
        refine ⟨used, rest, v, hsplit, hsettles, ?_⟩
        cases v with
        | read e =>
            obtain ⟨hclear', inner, r, rfl, hbrackets', hinner⟩ := hright
            exact ⟨.group hbrackets' hinner, trivial, hclear'⟩
        | failed failure => exact hright.imp fun h => h.completable hbrackets
      have hrefused : Settles (fun _ => (Parser.refuse (.unexpected (some w)) : Parser Expr)) d []
          (w :: ws) ending (.failed (.refused (.unexpected (some w)))) := settles_refuse _
      have hnothing : Verdict.IsRight .term [] (w :: ws) ending
          (.failed (.refused (.unexpected (some w)))) :=
        .refused (completable_nil .term) hclear
      refine exists_settles_peek ?_
      dsimp only
      cases hw : w.kind with
      | number => exact exists_settles_word (fun _ => .number hw) ws ending
      | name => exact exists_settles_named hw hq ws ending
      | lparen => exact hgroup .rparen (hw ▸ .round)
      | lbracket => exact hgroup .rbracket (hw ▸ .square)
      | _ => exact ⟨[], w :: ws, _, rfl, hrefused, hnothing⟩

theorem meets_unary (hq : Meets q d .unary) : Meets (fun d => Parser.unary (q d)) d .unary := by
  intro ws ending hclear
  by_cases hminus : front ws = some .minus
  · obtain ⟨w, ws, rfl⟩ : ∃ w ws', ws = w :: ws' := by
      cases ws with
      | nil => cases hminus
      | cons w ws => exact ⟨w, ws, rfl⟩
    have hw : w.kind = .minus := by simpa [front] using hminus
    have hstart : ∀ {used rest : List Word} {v : Verdict Expr}, w :: ws = used ++ rest →
        Settles (fun d => Parser.advance >>= fun _ => q d >>= fun e => pure (.unary .neg e)) d
          used rest ending v →
        Settles (fun d => Parser.unary (q d)) d used rest ending v := by
      intro used rest v hsplit hsettles
      refine settles_peek (hsplit ▸ rfl : _ = some w) ?_
      simpa [hw] using hsettles
    rcases isClear_or_failed ws ending with hclear' | ⟨error, rfl, rfl⟩
    · obtain ⟨used, rest, v, rfl, hsettles, hright⟩ := hq ws ending hclear'
      have hadvance := settles_advance (d := d) w hclear'
      cases v with
      | read e =>
          obtain ⟨hphrase, -, hclear''⟩ := hright
          exact ⟨w :: used, rest, .read (.unary .neg e), rfl,
            hstart rfl (hadvance.bind rfl (hsettles.bind_nil (settles_pure (Expr.unary .neg e)))),
            .negation hw hphrase, trivial, hclear''⟩
      | failed failure =>
          exact ⟨w :: used, rest, _, rfl, hstart rfl (hadvance.bind rfl hsettles.bind_failed),
            hright.imp (.negation hw)⟩
    · exact ⟨[w], [], _, rfl, hstart rfl (settles_advance_failed w error).bind_failed,
        .lexical (.negation hw (completable_nil .unary)) rfl rfl⟩
  · obtain ⟨used, rest, v, rfl, hsettles, hright⟩ := meets_term hq ws ending hclear
    refine ⟨used, rest, v, rfl, settles_peek rfl ?_, ?_⟩
    · rw [front] at hminus
      simpa only [if_neg hminus] using hsettles
    · cases v with
      | read e => exact ⟨.lift .term hright.1, trivial, hright.2.2⟩
      | failed failure => exact hright.imp (.lift .term)

end Operands

theorem meets_operand (d : Nat) : Meets Parser.operand d .unary := by
  induction d with
  | zero =>
      intro ws ending _
      refine ⟨[], ws, .failed .tooDeep, rfl, ?_, .tooDeep⟩
      intro d' _ hdeep rest' ending' _ refusals
      rw [hdeep rfl]
      rfl
  | succ d ih =>
      intro ws ending hclear
      obtain ⟨used, rest, v, hsplit, hsettles, hright⟩ := meets_unary ih ws ending hclear
      exact ⟨used, rest, v, hsplit, hsettles.of_succ, hright⟩

/-! ## Lines -/

/-- Every run of the reader of expressions is settled, also where it starts at a fault. -/
theorem exists_settles_expr (d : Nat) (ws : List Word) (ending : Option LexicalError) :
    ∃ used rest v, ws = used ++ rest ∧
      Settles (fun d => Parser.expr (Parser.operand d)) d used rest ending v ∧
      v.IsRight .sum used rest ending := by
  rcases isClear_or_failed ws ending with hclear | ⟨error, rfl, rfl⟩
  · exact meets_expr (meets_operand d) ws ending hclear
  · refine ⟨[], [], .failed (.lexical error), rfl, ?_, .lexical (completable_nil .sum) rfl rfl⟩
    intro d' _ _ rest' ending' hfront
    have hnil : rest' = [] := List.head?_eq_none_iff.mp hfront.head?_eq.symm
    rw [hnil, ← hfront.ending_eq rfl]
    exact (runs_checkEnding_failed error).bind_failed

/-- What a line is when the expression at its front has been read or has failed. -/
def Verdict.ofLine (rest : List Word) : Verdict Expr → Verdict Expr
  | read e =>
    match rest with
    | [] => .read e
    | w :: _ => .failed (.refused (.trailing w))
  | failed failure => .failed failure

/-- A line is read as an expression, and then refused if anything is left. -/
theorem Settles.line {d : Nat} {used rest : List Word} {ending : Option LexicalError}
    {v : Verdict Expr}
    (h : Settles (fun d => Parser.expr (Parser.operand d)) d used rest ending v) :
    Settles (fun d => Parser.line (Parser.operand d)) d used rest ending (v.ofLine rest) := by
  cases v with
  | failed failure => exact h.bind_failed
  | read e =>
      cases rest with
      | nil => exact h.bind_nil (settles_peek rfl (settles_pure e))
      | cons w rest => exact h.bind_nil (settles_peek rfl (settles_refuse _))

/-- What the verdict of the reader of lines says about the words that it used up. -/
def Verdict.IsRightLine (used rest : List Word) (ending : Option LexicalError) :
    Verdict Expr → Prop
  | .read e => rest = [] ∧ ending = none ∧ Derives used e
  | .failed failure => FailsAt (Completable .sum used) rest ending failure

/-- Every run of the reader of lines is settled.  A tree that is read derives from all words; before
a failure only words were used up that can be completed to a line. -/
theorem exists_settles_line (d : Nat) (ws : List Word) (ending : Option LexicalError) :
    ∃ used rest v, ws = used ++ rest ∧
      Settles (fun d => Parser.line (Parser.operand d)) d used rest ending v ∧
      v.IsRightLine used rest ending := by
  obtain ⟨used, rest, v, hsplit, hsettles, hright⟩ := exists_settles_expr d ws ending
  refine ⟨used, rest, v.ofLine rest, hsplit, hsettles.line, ?_⟩
  cases v with
  | failed failure => exact hright
  | read e =>
      obtain ⟨hphrase, -, hclear⟩ := hright
      cases rest with
      | nil => exact ⟨rfl, hclear rfl, hphrase⟩
      | cons w rest => exact .refused hphrase.completable hclear

end LineCalculator
