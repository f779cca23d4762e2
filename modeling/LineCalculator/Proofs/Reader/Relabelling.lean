import LineCalculator.Proofs.Reader.Line

/-!
# What readers do not see

A reader sees of a word its kind and its value, and of the word for a name also its text.  It does
not look into faults at all.  So when words and faults are exchanged for others that look the same
to it, it does the same as before and fails for the exchanged reason.  Kinds may be exchanged as
well, as long as only brackets are, and each pair of them for a pair.

The objections made before a run are exchanged with the rest, so a run is compared with its image
from the first input on.
-/

namespace LineCalculator

/-- The kinds of brackets. -/
def Kind.brackets : List Kind :=
  [.lparen, .rparen, .lbracket, .rbracket]

/-- An exchange of kinds, words and faults. -/
structure Relabelling where
  kind : Kind → Kind
  word : Word → Word
  fault : LexicalError → LexicalError

namespace Relabelling

variable {r : Relabelling} {α β : Type}

/-- The exchange keeps what readers see. -/
structure IsFaithful (r : Relabelling) : Prop where
  kind_word : ∀ w, (r.word w).kind = r.kind w.kind
  value_word : ∀ w, (r.word w).value = w.value
  text_word : ∀ w, w.kind = .name → (r.word w).text = w.text
  kind_eq : ∀ k, k ∉ Kind.brackets → r.kind k = k
  kind_inj : ∀ k l, r.kind k = r.kind l → k = l
  closer?_kind : ∀ k, (r.kind k).closer? = k.closer?.map r.kind
  frames_fault : ∀ e, (r.fault e).fault.frames = e.fault.frames

/-- A fault of grammar after the exchange. -/
def grammarFault (r : Relabelling) : GrammarFault → GrammarFault
  | .unexpected found => .unexpected (found.map r.word)
  | .expected kind found => .expected (r.kind kind) (found.map r.word)
  | .trailing found => .trailing (r.word found)
  | .unknownName name => .unknownName name

/-- An objection after the exchange. -/
def refusal (r : Relabelling) (x : Refusal) : Refusal :=
  ⟨r.grammarFault x.fault, x.left⟩

/-- A failure of reading after the exchange. -/
def readFailure (r : Relabelling) : ReadFailure → ReadFailure
  | .lexical e => .lexical (r.fault e)
  | .refused x => .refused (r.refusal x)
  | .tooDeep => .tooDeep
  | .brokenOff => .brokenOff

/-- An input after the exchange. -/
def input (r : Relabelling) (i : Input) : Input :=
  ⟨i.words.map r.word, i.ending.map r.fault, i.refusals.map r.refusal⟩

/-- A result after the exchange. -/
def result (r : Relabelling) :
    EStateM.Result ReadFailure Input α → EStateM.Result ReadFailure Input α
  | .ok a i => .ok a (r.input i)
  | .error e i => .error (r.readFailure e) (r.input i)

/-- A verdict after the exchange. -/
def verdict (r : Relabelling) : Verdict α → Verdict α
  | .read a => .read a
  | .failed (.lexical e) => .failed (.lexical (r.fault e))
  | .failed (.refused fault) => .failed (.refused (r.grammarFault fault))
  | .failed .tooDeep => .failed .tooDeep

/-- The second reader does after the exchange what the first one does before it. -/
def Mirrors (r : Relabelling) (p q : Parser α) : Prop :=
  ∀ i, q (r.input i) = r.result (p i)

theorem result_verdict (r : Relabelling) (v : Verdict α) (rest : List Word)
    (ending : Option LexicalError) :
    r.result (v.result rest ending []) =
      (r.verdict v).result (rest.map r.word) (ending.map r.fault) [] := by
  cases v with
  | read a => rfl
  | failed failure =>
      cases failure <;> simp [Verdict.result, result, verdict, readFailure, refusal, input]

/-! ## Composition -/

theorem Mirrors.pure (a : α) : r.Mirrors (pure a) (pure a) :=
  fun _ => rfl

theorem Mirrors.bind {p q : Parser α} {f g : α → Parser β} (h : r.Mirrors p q)
    (hfg : ∀ a, r.Mirrors (f a) (g a)) : r.Mirrors (p >>= f) (q >>= g) := by
  intro i
  change EStateM.bind q g _ = r.result (EStateM.bind p f i)
  rw [EStateM.bind, EStateM.bind, h i]
  cases p i with
  | ok a i' => exact hfg a i'
  | error e i' => rfl

theorem Mirrors.peek_bind {f g : Option Word → Parser β}
    (h : ∀ found, r.Mirrors (f found) (g (found.map r.word))) :
    r.Mirrors (Parser.peek >>= f) (Parser.peek >>= g) := by
  intro i
  have hhead : (i.words.map r.word).head? = i.words.head?.map r.word := List.head?_map
  change g (i.words.map r.word).head? (r.input i) = r.result (f i.words.head? i)
  rw [hhead]
  exact h _ i

theorem mirrors_refuse (fault : GrammarFault) :
    r.Mirrors (Parser.refuse fault : Parser α) (Parser.refuse (r.grammarFault fault)) := by
  intro i
  change EStateM.Result.error _ _ = EStateM.Result.error _ _
  simp [readFailure, refusal, input]

theorem mirrors_checkEnding : r.Mirrors Parser.checkEnding Parser.checkEnding := by
  rintro ⟨ws, ending, refusals⟩
  cases ws with
  | nil => cases ending <;> rfl
  | cons w ws => rfl

theorem mirrors_advance : r.Mirrors Parser.advance Parser.advance := by
  intro i
  have hcheck := mirrors_checkEnding (r := r) { i with words := i.words.tail }
  change Parser.checkEnding { r.input i with words := (i.words.map r.word).tail } = _
  rw [← List.map_tail]
  exact hcheck

/-! ## What readers see -/

theorem IsFaithful.kind_eq_iff (hr : r.IsFaithful) {k l : Kind} (hl : l ∉ Kind.brackets) :
    r.kind k = l ↔ k = l := by
  constructor
  · intro h
    exact hr.kind_inj k l (h.trans (hr.kind_eq l hl).symm)
  · rintro rfl
    exact hr.kind_eq _ hl

theorem IsFaithful.kind_mem_brackets (hr : r.IsFaithful) {k : Kind} (hk : k ∈ Kind.brackets) :
    r.kind k ∈ Kind.brackets := by
  by_contra hnot
  apply hnot
  rw [(hr.kind_eq_iff hnot).mp rfl] at hk
  exact hk

theorem IsFaithful.op?_kind (hr : r.IsFaithful) {op? : Kind → Option BinaryOp}
    (hop : ∀ k ∈ Kind.brackets, op? k = none) (k : Kind) : op? (r.kind k) = op? k := by
  by_cases hk : k ∈ Kind.brackets
  · rw [hop k hk, hop _ (hr.kind_mem_brackets hk)]
  · rw [hr.kind_eq k hk]

theorem IsFaithful.frames_kind (hr : r.IsFaithful) (k : Kind) : (r.kind k).frames = k.frames := by
  by_cases hk : k ∈ Kind.brackets
  · have hbrackets : ∀ k ∈ Kind.brackets, k.frames = searchFrames := by decide
    rw [hbrackets k hk, hbrackets _ (hr.kind_mem_brackets hk)]
  · rw [hr.kind_eq k hk]

theorem IsFaithful.framesAhead_input (hr : r.IsFaithful) (i : Input) :
    (r.input i).framesAhead = i.framesAhead := by
  obtain ⟨words, ending, refusals⟩ := i
  rcases words with - | ⟨w, - | ⟨w', words⟩⟩
  · cases ending with
    | none => rfl
    | some e => exact hr.frames_fault e
  · cases ending with
    | none => rfl
    | some e => exact hr.frames_fault e
  · exact (congrArg Kind.frames (hr.kind_word w')).trans (hr.frames_kind w'.kind)

section Readers

variable (hr : r.IsFaithful) {p q : Parser Expr} {frames : Nat}

/-! ## What is done at the bottom -/

theorem Mirrors.ite {c : Prop} [Decidable c] {p' q' : Parser α} {p q : Parser α}
    (h : r.Mirrors p q) (h' : r.Mirrors p' q') :
    r.Mirrors (if c then p else p') (if c then q else q') := by
  split
  · exact h
  · exact h'

theorem mirrors_tooDeep : r.Mirrors (throw .tooDeep : Parser α) (throw .tooDeep) :=
  fun _ => rfl

theorem mirrors_refuseWithin (frames : Nat) (fault : GrammarFault) :
    r.Mirrors (Parser.refuseWithin frames fault : Parser α)
      (Parser.refuseWithin frames (r.grammarFault fault)) :=
  mirrors_tooDeep.ite (mirrors_refuse fault)

theorem mirrors_checkEndingWithin (frames : Nat) :
    r.Mirrors (Parser.checkEndingWithin frames) (Parser.checkEndingWithin frames) := by
  intro i
  have hwords : (r.input i).words = [] ↔ i.words = [] := List.map_eq_nil_iff
  have hending : (r.input i).ending ≠ none ↔ i.ending ≠ none := by simp [input]
  rw [checkEndingWithin_apply, checkEndingWithin_apply]
  simp only [hwords, hending]
  split
  · rfl
  · exact mirrors_checkEnding i

include hr

theorem mirrors_advanceWithin (frames : Nat) :
    r.Mirrors (Parser.advanceWithin frames) (Parser.advanceWithin frames) := by
  intro i
  rw [advanceWithin_apply, advanceWithin_apply, hr.framesAhead_input]
  split
  · rfl
  · split
    · rfl
    · exact mirrors_advance i

theorem mirrors_expectWithin (frames : Nat) (k : Kind) :
    r.Mirrors (Parser.expectWithin frames k) (Parser.expectWithin frames (r.kind k)) := by
  apply Mirrors.peek_bind
  intro found
  have hkinds : (found.map r.word).map Word.kind = some (r.kind k) ↔
      found.map Word.kind = some k := by
    rw [Option.map_map]
    constructor
    · intro h
      obtain ⟨w, rfl, hw⟩ := Option.map_eq_some_iff.mp h
      exact congrArg some (hr.kind_inj _ _ ((hr.kind_word w).symm.trans hw))
    · intro h
      obtain ⟨w, rfl, rfl⟩ := Option.map_eq_some_iff.mp h
      exact congrArg some (hr.kind_word w)
  by_cases hkind : found.map Word.kind = some k
  · rw [if_pos hkind, if_pos (hkinds.mpr hkind)]
    exact mirrors_advanceWithin hr _
  · rw [if_neg hkind, if_neg (mt hkinds.mp hkind)]
    exact mirrors_refuseWithin _ _

/-! ## The procedures -/

theorem Mirrors.chainFrom {op? : Kind → Option BinaryOp}
    (hop : ∀ k ∈ Kind.brackets, op? k = none) (h : r.Mirrors p q) (frames n : Nat) (left : Expr) :
    r.Mirrors (Parser.chainFrom (Parser.advanceWithin frames) op? p n left)
      (Parser.chainFrom (Parser.advanceWithin frames) op? q n left) := by
  induction n generalizing left with
  | zero => exact .pure left
  | succ n ih =>
      apply Mirrors.peek_bind
      intro found
      have hsame : ((found.map r.word).bind fun w => op? w.kind) =
          found.bind fun w => op? w.kind := by
        rw [Option.bind_map]
        congr 1
        funext w
        exact (congrArg op? (hr.kind_word w)).trans (hr.op?_kind hop w.kind)
      rw [hsame]
      cases found.bind fun w => op? w.kind with
      | none => exact .pure left
      | some op =>
          exact (mirrors_advanceWithin hr frames).bind fun _ => h.bind fun right => ih _

theorem Mirrors.chain {op? : Kind → Option BinaryOp} (hop : ∀ k ∈ Kind.brackets, op? k = none)
    (h : r.Mirrors p q) (frames : Nat) :
    r.Mirrors (Parser.chain (Parser.advanceWithin frames) op? p)
      (Parser.chain (Parser.advanceWithin frames) op? q) := by
  apply h.bind
  intro left i
  -- the number of words bounds the repetition, and the exchange keeps it
  have hfrom := h.chainFrom hr hop frames i.words.length left i
  change Parser.chainFrom (Parser.advanceWithin frames) op? q (i.words.map r.word).length left
    (r.input i) = _
  rw [List.length_map]
  exact hfrom

theorem Mirrors.bracketed (h : r.Mirrors p q) (frames : Nat) (closer : Kind) :
    r.Mirrors (Procedure.bracketed frames p closer)
      (Procedure.bracketed frames q (r.kind closer)) :=
  (mirrors_advanceWithin hr frames).bind fun _ => h.bind fun e =>
    (mirrors_expectWithin hr frames closer).bind fun _ => .pure e

theorem mirrors_argument {readers : Procedure → Parser Expr}
    (h : ∀ procedure, r.Mirrors (readers procedure) (readers procedure)) :
    r.Mirrors (Procedure.argument readers) (Procedure.argument readers) := by
  apply Mirrors.peek_bind
  intro found
  have hsame : ((found.map r.word).bind fun w => w.kind.closer?) =
      (found.bind fun w => w.kind.closer?).map r.kind := by
    rw [Option.bind_map, Option.map_bind]
    congr 1
    funext w
    exact (congrArg Kind.closer? (hr.kind_word w)).trans (hr.closer?_kind w.kind)
  rw [hsame]
  cases found.bind fun w => w.kind.closer? with
  | none => exact h .power
  | some closer => exact h .term

omit hr in
/-- The form of a term that starts with a word is decided by three questions about its kind. -/
theorem reader_term_eq (frames : Nat) : Procedure.term.reader (frames + 1) =
    (Parser.peek >>= fun found =>
      match found with
      | none => Parser.refuseWithin frames (.unexpected none)
      | some w =>
        if w.kind = .number then Parser.advanceWithin frames >>= fun _ => pure (.number w.value)
        else if w.kind = .name then (Procedure.named w.name).reader frames
        else
          match w.kind.closer? with
          | some closer => Procedure.bracketed frames (Procedure.expr.reader frames) closer
          | none => Parser.refuseWithin frames (.unexpected (some w))) := by
  rw [Procedure.reader]
  congr 1
  funext found
  cases found with
  | none => rfl
  | some w => cases hw : w.kind <;> simp [hw, Kind.closer?, Word.name]

theorem mirrors_term (h : ∀ procedure : Procedure,
      r.Mirrors (procedure.reader frames) (procedure.reader frames)) :
    r.Mirrors (Procedure.term.reader (frames + 1)) (Procedure.term.reader (frames + 1)) := by
  rw [reader_term_eq]
  apply Mirrors.peek_bind
  intro found
  cases found with
  | none => exact mirrors_refuseWithin _ _
  | some w =>
      have hkind := hr.kind_word w
      have hnumber : (r.word w).kind = .number ↔ w.kind = .number := by
        rw [hkind]
        exact hr.kind_eq_iff (by decide)
      have hname : (r.word w).kind = .name ↔ w.kind = .name := by
        rw [hkind]
        exact hr.kind_eq_iff (by decide)
      simp only [Option.map_some, hnumber, hname]
      by_cases hw : w.kind = .number
      · rw [if_pos hw, if_pos hw, hr.value_word]
        exact (mirrors_advanceWithin hr frames).bind fun _ => .pure _
      · rw [if_neg hw, if_neg hw]
        by_cases hw' : w.kind = .name
        · have hsame : (r.word w).name = w.name := by
            rw [Word.name, Word.name, hr.text_word w hw']
          rw [if_pos hw', if_pos hw', hsame]
          exact h (.named w.name)
        · rw [if_neg hw', if_neg hw', hkind, hr.closer?_kind]
          cases w.kind.closer? with
          | some closer => exact (h .expr).bracketed hr frames closer
          | none => exact mirrors_refuseWithin _ _

/-- A procedure does the same before and after the exchange, whatever its frames are. -/
theorem mirrors_reader (frames : Nat) (procedure : Procedure) :
    r.Mirrors (procedure.reader frames) (procedure.reader frames) := by
  induction frames generalizing procedure with
  | zero => exact mirrors_tooDeep
  | succ frames ih =>
      cases procedure with
      | line =>
          refine (ih .expr).bind fun e => Mirrors.peek_bind fun found => ?_
          cases found with
          | none => exact .pure e
          | some w => exact mirrors_refuseWithin _ _
      | expr => exact (mirrors_checkEndingWithin frames).bind fun _ => ih .sum
      | sum => exact (ih .product).chain hr (by decide) frames
      | product => exact (ih .power).chain hr (by decide) frames
      | power => exact (ih .unary).chain hr (by decide) frames
      | unary =>
          apply Mirrors.peek_bind
          intro found
          have hminus : (found.map r.word).map Word.kind = some .minus ↔
              found.map Word.kind = some .minus := by
            cases found with
            | none => simp
            | some w => simp [hr.kind_word, hr.kind_eq_iff (l := .minus) (by decide)]
          by_cases hfound : found.map Word.kind = some .minus
          · rw [if_pos hfound, if_pos (hminus.mpr hfound)]
            exact (mirrors_advanceWithin hr frames).bind fun _ =>
              (ih .unary).bind fun e => .pure _
          · rw [if_neg hfound, if_neg (mt hminus.mp hfound)]
            exact ih .term
      | term => exact mirrors_term hr ih
      | named name =>
          rw [Procedure.reader]
          cases Names.lookup name with
          | none => exact mirrors_refuseWithin _ _
          | some entry =>
              cases entry with
              | constant value description =>
                  exact (mirrors_advanceWithin hr frames).bind fun _ => .pure _
              | function fn description =>
                  exact (mirrors_advanceWithin hr frames).bind fun _ =>
                    (mirrors_argument hr ih).bind fun arg => .pure _

end Readers

/-! ## Sources -/

theorem isCut_result {result : EStateM.Result ReadFailure Input α} :
    IsCut (r.result result) ↔ IsCut result := by
  cases result with
  | ok a rest => simp [Relabelling.result, IsCut]
  | error failure rest =>
      cases failure <;> simp [Relabelling.result, readFailure, IsCut, ReadFailure.isCut]

theorem input_primed {source source' : List Char} {ps ps' : List Piece}
    {ending : Option LexicalError} (hmade : IsMadeOf 0 source ps ending)
    (hmade' : IsMadeOf 0 source' ps' (ending.map r.fault))
    (hwords : ps'.map Piece.word = (ps.map Piece.word).map r.word) :
    (Lexer.primed source').input = r.input (Lexer.primed source).input := by
  rw [Lexer.input, Lexer.input, hmade.words_primed, hmade'.words_primed, hwords]
  rfl

/-- When the pieces of two sources have words that look the same, the sources are read alike, with
the same number of pieces left, and if the frames run out over one they do so over the other. -/
theorem IsFaithful.readLine_eq [Limits] (hr : r.IsFaithful) {source source' : List Char}
    {ps ps' : List Piece} {ending : Option LexicalError} (hmade : IsMadeOf 0 source ps ending)
    (hmade' : IsMadeOf 0 source' ps' (ending.map r.fault))
    (hwords : ps'.map Piece.word = (ps.map Piece.word).map r.word) :
    ((readLine source).result = .error .tooDeep ∧ (readLine source').result = .error .tooDeep) ∨
      ∃ before after before' after' v, ps = before ++ after ∧ ps' = before' ++ after' ∧
        before'.length = before.length ∧
        (readLine source).result = v.answer (placeOf source (spelledLength before) after) ∧
        (readLine source').result =
          (r.verdict v).answer (placeOf source' (spelledLength before') after') := by
  have hmirrors := mirrors_reader hr Production.line.frames .line (Lexer.primed source).input
  rw [← input_primed hmade hmade' hwords] at hmirrors
  change Production.line.parser _ = r.result (Production.line.parser _) at hmirrors
  obtain ⟨used, rest, v, hsplit, hsettles, -⟩ :=
    exists_settles_line Limits.levels (ps.map Piece.word) ending
  obtain ⟨used', rest', v', hsplit', hsettles', -⟩ :=
    exists_settles_line Limits.levels (ps'.map Piece.word) (ending.map r.fault)
  obtain ⟨before, after, rfl, rfl, rfl⟩ := List.map_eq_append_iff.mp hsplit
  obtain ⟨before', after', rfl, rfl, rfl⟩ := List.map_eq_append_iff.mp hsplit'
  have hruns := hsettles.runs
  have hruns' := hsettles'.runs
  rw [← List.map_append] at hruns hruns'
  by_cases hcut : IsCut (Production.line.parser (Lexer.primed source).input)
  · have hcut' : IsCut (Production.line.parser (Lexer.primed source').input) := by
      rw [hmirrors]
      exact isCut_result.mpr hcut
    rw [readLine_eq_parse, readLine_eq_parse]
    exact Or.inl ⟨parse_eq_tooDeep_iff.mpr hcut, parse_eq_tooDeep_iff.mpr hcut'⟩
  · have hcut' : ¬ IsCut (Production.line.parser (Lexer.primed source').input) := by
      rw [hmirrors]
      exact mt isCut_result.mp hcut
    have hresult := (parser_of_runs .line hmade.words_primed hruns).resolve_left hcut
    have hresult' := (parser_of_runs .line hmade'.words_primed hruns').resolve_left hcut'
    rw [hmirrors, hresult, result_verdict] at hresult'
    obtain ⟨rfl, hrest⟩ := Verdict.result_inj hresult'
    refine Or.inr ⟨before, after, before', after', v, rfl, rfl, ?_, ?_, ?_⟩
    · have hlength := congrArg List.length hwords
      have hlength' := congrArg List.length hrest
      simp only [List.length_map, List.length_append] at hlength hlength'
      omega
    · rw [readLine_eq_parse]
      exact ((hmade.parse_primed .line hruns).resolve_left hcut).1
    · rw [readLine_eq_parse]
      exact ((hmade'.parse_primed .line hruns').resolve_left hcut').1

end Relabelling

end LineCalculator
