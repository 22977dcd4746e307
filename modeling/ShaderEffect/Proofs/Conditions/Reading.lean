import ShaderEffect.Proofs.Conditions.Grammar
import ShaderEffect.Proofs.Preprocessing.Texts

namespace ShaderEffect.Preprocessor

open Condition
open Operator (endsOperand)
open Token (Cursor)

variable {p q q' : Preprocessor} {s s' : ConditionState} {t : Token} {raw ts ts' : List Token}
  {fuel n : Nat} {macros : List (String × Macro)}

/-- The tokens in front of the newline that ends a line, if it is among the next tokens. -/
def lineAhead : (n : Nat) → Token → Cursor → Option (List Token)
  | 0, _, _ => none
  | n + 1, next, c =>
    if next.kind = .endOfLine then some []
    else if next.kind = .eof then none
    else (lineAhead n (Token.lex lexOptions c).1 (Token.lex lexOptions c).2).map (next :: ·)

/-- Whether these tokens are what is left of the line. -/
def Faces (p : Preprocessor) (raw : List Token) : Prop :=
  ∃ input n, p.stack[p.nextLevel]? = some input ∧ lineAhead n input.next input.cursor = some raw

/-- Tokens without the blanks among them. -/
def words (raw : List Token) : List Token :=
  raw.filter (·.kind ≠ .space)

/-- Whether these tokens are what is left of the line, with blanks among them up to a
number of tokens. -/
def Offers (p : Preprocessor) (ts : List Token) (n : Nat) : Prop :=
  ∃ raw, Faces p raw ∧ words raw = ts ∧ raw.length ≤ n

/-- Whether one state follows another one with no more than tokens read between them. -/
def Reads (p q : Preprocessor) : Prop :=
  ∃ output reached level token stack, q = { p with output, reached, level, token, stack }

theorem Reads.refl (p : Preprocessor) : Reads p p :=
  ⟨p.output, p.reached, p.level, p.token, p.stack, rfl⟩

theorem Reads.trans (h : Reads p q) (h' : Reads q q') : Reads p q' := by
  obtain ⟨_, _, _, _, _, rfl⟩ := h
  obtain ⟨output, reached, level, token, stack, rfl⟩ := h'
  exact ⟨output, reached, level, token, stack, rfl⟩

theorem Reads.macros_eq (h : Reads p q) : q.macros = p.macros := by
  obtain ⟨_, _, _, _, _, rfl⟩ := h
  rfl

theorem Reads.nextLevel_eq (h : Reads p q) : q.nextLevel = p.nextLevel := by
  obtain ⟨_, _, _, _, _, rfl⟩ := h
  rfl

theorem nextKind_of_get {input : Input} (h : p.stack[p.nextLevel]? = some input) :
    p.nextKind = input.next.kind := by
  rw [nextKind, h]
  rfl

theorem lineAhead_eq_cons {next : Token} {c : Cursor} (h : lineAhead n next c = some (t :: raw)) :
    next = t ∧ t.kind ≠ .endOfLine ∧ t.kind ≠ .eof
      ∧ ∃ m, lineAhead m (Token.lex lexOptions c).1 (Token.lex lexOptions c).2 = some raw := by
  cases n with
  | zero => cases h
  | succ n =>
    rw [lineAhead] at h
    split at h
    · cases h
    · split at h
      · cases h
      · obtain ⟨raw', hrest, heq⟩ := Option.map_eq_some_iff.mp h
        obtain ⟨rfl, rfl⟩ := List.cons.inj heq
        exact ⟨rfl, ‹_›, ‹_›, n, hrest⟩

theorem lineAhead_ne_eof {next : Token} {c : Cursor} (h : lineAhead n next c = some raw) :
    next.kind ≠ .eof := by
  cases n with
  | zero => cases h
  | succ n =>
    rw [lineAhead] at h
    split at h
    · rename_i hnewline
      rw [hnewline]
      exact Token.Kind.noConfusion
    · split at h
      · cases h
      · assumption

theorem Faces.nextKind_nil (h : Faces p []) : p.nextKind = .endOfLine := by
  obtain ⟨input, n, hget, hline⟩ := h
  rw [nextKind_of_get hget]
  cases n with
  | zero => cases hline
  | succ n =>
    rw [lineAhead] at hline
    split at hline
    · assumption
    · split at hline
      · cases hline
      · obtain ⟨_, -, heq⟩ := Option.map_eq_some_iff.mp hline
        cases heq

theorem Faces.nextKind_cons (h : Faces p (t :: raw)) :
    p.nextKind = t.kind ∧ t.kind ≠ .endOfLine ∧ t.kind ≠ .eof := by
  obtain ⟨input, n, hget, hline⟩ := h
  obtain ⟨rfl, hnewline, heof, -⟩ := lineAhead_eq_cons hline
  exact ⟨nextKind_of_get hget, hnewline, heof⟩

theorem popFinished_of_next {level : Nat} (h : q.nextKind ≠ .eof) :
    popFinished level q = .ok (true, q) := by
  cases level with
  | zero => exact popFinished_zero_of_next h
  | succ level =>
    unfold popFinished
    exact bind_eq_ok.mpr ⟨false, _, isFinished_eq_ok.mpr (.goesOn h),
      pure_eq_ok.mpr ⟨rfl, rfl⟩⟩

theorem consume_lineAhead {input : Input} (hget : p.stack[p.nextLevel]? = some input)
    (hline : lineAhead n input.next input.cursor = some (t :: raw))
    (ht : t.kind = .stringLiteral → isClosed t.raw = true) :
    ∃ q m next cursor, consume p = .ok (true, q)
      ∧ Reads p q ∧ q.stack[q.nextLevel]? = some { input with next, cursor }
      ∧ lineAhead m next cursor = some raw ∧ q.token = t := by
  obtain ⟨rfl, -, -, m, hrest⟩ := lineAhead_eq_cons hline
  obtain ⟨hstack, hnext, -⟩ := entered_keeps p input
  have hset : (advanced (entered p input) input).stack[p.nextLevel]? =
      some { input with
        next := (Token.lex lexOptions input.cursor).1
        cursor := (Token.lex lexOptions input.cursor).2 } := by
    have hlt := (List.getElem?_eq_some_iff.mp hget).1
    simp only [advanced, hstack, hnext]
    rw [List.getElem?_set_self]
    rw [List.length_take]
    exact Nat.lt_min.mpr ⟨Nat.lt_succ_self _, hlt⟩
  have hget' := (congrArg _ hnext).trans hset
  have heof : (advanced (entered p input) input).nextKind ≠ .eof := by
    rw [nextKind_of_get hget']
    exact lineAhead_ne_eof hrest
  refine ⟨advanced (entered p input) input, m, _, _, ?_, ?_, hget', hrest, rfl⟩
  · rw [consume_of_some hget, noted, if_neg]
    · exact popFinished_of_next heof
    · simpa using ht
  · unfold entered advanced
    split <;> exact ⟨_, _, _, _, _, rfl⟩

/-- A token of the line is read, and the rest of the line is left. -/
theorem Faces.read (h : Faces p (t :: raw)) (ht : t.kind ≠ .stringLiteral) :
    ∃ q, consume p = .ok (true, q) ∧ Reads p q ∧ Faces q raw ∧ q.token = t := by
  obtain ⟨input, n, hget, hline⟩ := h
  obtain ⟨q, m, next, cursor, hconsume, hreads, hget', hline', htoken⟩ :=
    consume_lineAhead hget hline fun hstring => absurd hstring ht
  exact ⟨q, hconsume, hreads, ⟨_, m, hget', hline'⟩, htoken⟩

theorem skipSpaces_stop (h : p.nextKind ≠ .space) : skipSpaces (n + 1) p = .ok ((), p) := by
  have hpeek : peek .space p = .ok (false, p) :=
    congrArg (fun b => Except.ok (b, p)) (decide_eq_false h)
  exact bind_eq_ok.mpr ⟨false, p, bind_eq_ok.mpr ⟨false, p, hpeek, rfl⟩, rfl⟩

theorem skipSpaces_step (h : p.nextKind = .space) (hconsume : consume p = .ok (true, q))
    (hrest : skipSpaces n q = .ok ((), q')) : skipSpaces (n + 1) p = .ok ((), q') := by
  have hpeek : peek .space p = .ok (true, p) :=
    congrArg (fun b => Except.ok (b, p)) (decide_eq_true h)
  have hround : (do if ← peek .space then consume *> return true else return false) p
      = .ok (true, q) :=
    bind_eq_ok.mpr ⟨true, p, hpeek, bind_eq_ok.mpr ⟨true, q, hconsume, rfl⟩⟩
  exact bind_eq_ok.mpr ⟨true, q, hround, hrest⟩

theorem words_cons (h : t.kind ≠ .space) : words (t :: raw) = t :: words raw :=
  List.filter_cons_of_pos (decide_eq_true h)

theorem words_space (h : t.kind = .space) : words (t :: raw) = words raw :=
  List.filter_cons_of_neg (by simp [h])

/-- Blanks in front of a token are passed over. -/
theorem Offers.skip (h : Offers p (t :: ts) n) (hn : n < fuel) :
    ∃ q raw, skipSpaces fuel p = .ok ((), q)
      ∧ Reads p q ∧ Faces q (t :: raw) ∧ words raw = ts ∧ raw.length < n := by
  obtain ⟨raw, hraw, hwords, hlength⟩ := h
  induction raw generalizing p fuel n with
  | nil => cases hwords
  | cons first raw ih =>
    obtain ⟨fuel, rfl⟩ := Nat.exists_eq_add_one_of_ne_zero (Nat.ne_zero_of_lt hn)
    obtain ⟨hnext, -, -⟩ := hraw.nextKind_cons
    rw [List.length_cons] at hlength
    by_cases hspace : first.kind = .space
    · have hstring : first.kind ≠ .stringLiteral := hspace ▸ Token.Kind.noConfusion
      obtain ⟨q, hconsume, hreads, hrest, -⟩ := hraw.read hstring
      have hbound : n - 1 < fuel := by omega
      have hle : raw.length ≤ n - 1 := by omega
      rw [words_space hspace] at hwords
      obtain ⟨q', raw', hskip, hreads', hface, hwords', hlength'⟩ := ih hbound hrest hwords hle
      exact ⟨q', raw', skipSpaces_step (hnext.trans hspace) hconsume hskip, hreads.trans hreads',
        hface, hwords', by omega⟩
    · rw [words_cons hspace] at hwords
      obtain ⟨rfl, hrest⟩ := List.cons.inj hwords
      exact ⟨p, raw, skipSpaces_stop (hnext.trans_ne hspace), .refl p, hraw, hrest, hlength⟩

theorem Offers.ne_space (h : Offers p (t :: ts) n) : t.kind ≠ .space := by
  obtain ⟨raw, -, hwords, -⟩ := h
  have hmem : t ∈ words raw := hwords ▸ List.mem_cons_self
  exact of_decide_eq_true (List.mem_filter.mp hmem).2

theorem peek_eq (p : Preprocessor) (kind : Token.Kind) :
    peek kind p = .ok (decide (p.nextKind = kind), p) :=
  rfl

/-- The next token is read if it is of the kind that is looked for. -/
theorem Offers.accept (h : Offers p (t :: ts) n) (hn : n < fuel) (ht : t.kind ≠ .stringLiteral) :
    ∃ q, accept fuel t.kind p = .ok (true, q)
      ∧ Reads p q ∧ Offers q ts n ∧ q.token = t := by
  obtain ⟨q, raw, hskip, hreads, hface, hwords, hlength⟩ := h.skip hn
  obtain ⟨q', hconsume, hreads', hrest, htoken⟩ := hface.read ht
  have hpeek : peek t.kind q = .ok (true, q) := by
    rw [peek_eq, hface.nextKind_cons.1, decide_eq_true rfl]
  refine ⟨q', ?_, hreads.trans hreads', ⟨raw, hrest, hwords, hlength.le⟩, htoken⟩
  exact bind_eq_ok.mpr ⟨(), q, hskip,
    bind_eq_ok.mpr ⟨true, q, hpeek, bind_eq_ok.mpr ⟨true, q', hconsume, rfl⟩⟩⟩

/-- The next token is left if it is of another kind. -/
theorem Offers.leave {kind : Token.Kind} (h : Offers p (t :: ts) n) (hn : n < fuel)
    (hkind : t.kind ≠ kind) :
    ∃ q, Preprocessor.accept fuel kind p = .ok (false, q)
      ∧ Reads p q ∧ Offers q (t :: ts) n := by
  obtain ⟨q, raw, hskip, hreads, hface, hwords, hlength⟩ := h.skip hn
  have hpeek : peek kind q = .ok (false, q) := by
    rw [peek_eq, hface.nextKind_cons.1, decide_eq_false hkind]
  have hsame : words (t :: raw) = t :: ts := by rw [words_cons h.ne_space, hwords]
  refine ⟨q, ?_, hreads, ⟨t :: raw, hface, hsame, hlength⟩⟩
  exact bind_eq_ok.mpr ⟨(), q, hskip, bind_eq_ok.mpr ⟨false, q, hpeek, rfl⟩⟩

theorem Offers.expect (h : Offers p (t :: ts) n) (hn : n < fuel) (ht : t.kind ≠ .stringLiteral) :
    ∃ q, expect fuel t.kind p = .ok (true, q)
      ∧ Reads p q ∧ Offers q ts n ∧ q.token = t := by
  obtain ⟨q, haccept, hq⟩ := h.accept hn ht
  exact ⟨q, bind_eq_ok.mpr ⟨true, q, haccept, rfl⟩, hq⟩

/-- Whether a macro is defined is asked with its name. -/
theorem evaluateDefined_name (h : Offers p (t :: ts) n) (hn : n < fuel)
    (ht : t.kind = .identifier) :
    ∃ q, evaluateDefined fuel p = .ok (some (truth (p.macros.lookup t.text).isSome), q)
      ∧ Reads p q ∧ Offers q ts n := by
  have hparen : t.kind ≠ .parenOpen := ht ▸ Token.Kind.noConfusion
  have hstring : t.kind ≠ .stringLiteral := ht ▸ Token.Kind.noConfusion
  obtain ⟨q, hleave, hreads, hname⟩ := h.leave hn hparen
  obtain ⟨q', hexpect, hreads', hrest, htoken⟩ := hname.expect hn hstring
  rw [ht] at hexpect
  refine ⟨q', ?_, hreads.trans hreads', hrest⟩
  rw [← (hreads.trans hreads').macros_eq, ← htoken]
  exact bind_eq_ok.mpr ⟨false, q, hleave, bind_eq_ok.mpr ⟨true, q', hexpect, rfl⟩⟩

/-- The name can stand in parentheses. -/
theorem evaluateDefined_paren {before after : Token} (h : Offers p (before :: t :: after :: ts) n)
    (hn : n < fuel) (hbefore : before.kind = .parenOpen) (ht : t.kind = .identifier)
    (hafter : after.kind = .parenClose) :
    ∃ q, evaluateDefined fuel p = .ok (some (truth (p.macros.lookup t.text).isSome), q)
      ∧ Reads p q ∧ Offers q ts n := by
  obtain ⟨q₁, hopen, hreads₁, hname, -⟩ := h.accept hn (hbefore ▸ Token.Kind.noConfusion)
  obtain ⟨q₂, hexpect, hreads₂, hclose, htoken⟩ :=
    hname.expect hn (ht ▸ Token.Kind.noConfusion)
  obtain ⟨q₃, hclosed, hreads₃, hrest, -⟩ :=
    hclose.expect hn (hafter ▸ Token.Kind.noConfusion)
  rw [hbefore] at hopen
  rw [ht] at hexpect
  rw [hafter] at hclosed
  have hreads := hreads₁.trans hreads₂
  refine ⟨q₃, ?_, hreads.trans hreads₃, hrest⟩
  rw [← hreads.macros_eq, ← htoken]
  refine bind_eq_ok.mpr ⟨true, q₁, hopen, bind_eq_ok.mpr ⟨true, q₂, hexpect, ?_⟩⟩
  exact bind_eq_ok.mpr ⟨q₂, q₂, rfl, bind_eq_ok.mpr ⟨true, q₃, hclosed, rfl⟩⟩

theorem ofKind?_ne {previous kind k : Token.Kind} {op : Operator}
    (h : Operator.ofKind? previous kind = some op)
    (hk : Operator.ofKind? previous k = none) : kind ≠ k := by
  rintro rfl
  rw [hk] at h
  cases h

/-- No round starts with a string or a continuation. -/
theorem kind_ne_of_round (h : Round macros s (t :: ts) s') :
    t.kind ≠ .stringLiteral ∧ t.kind ≠ .backslash := by
  have hkind {k : Token.Kind} (ht : t.kind = k) (hk : k ≠ .stringLiteral ∧ k ≠ .backslash) :
      t.kind ≠ .stringLiteral ∧ t.kind ≠ .backslash := ht ▸ hk
  cases h with
  | literal ht => exact ht.elim (hkind · (by decide)) (hkind · (by decide))
  | name ht => exact hkind ht (by decide)
  | defined hd => exact hkind hd.1 (by decide)
  | definedParen hd => exact hkind hd.1 (by decide)
  | opening ht => exact hkind ht (by decide)
  | closing ht => exact hkind ht (by decide)
  | operator hop => exact ⟨ofKind?_ne hop rfl, ofKind?_ne hop rfl⟩

/-- A name that asks for a definition gives the value of the definition. -/
theorem conditionItem_defined {op : Option Operator} {v : UInt32} (hfuel : 0 < fuel)
    (hd : AsksDefined p.macros p.token) (hdefined : evaluateDefined fuel p = .ok (some v, q)) :
    conditionItem fuel s op p
      = .ok (.inl { sorted := s.sorted.push v, previous := .intLiteral }, q) := by
  obtain ⟨hkind, htext, hname⟩ := hd
  refine bind_eq_ok.mpr ⟨p, p, rfl, ?_⟩
  simp only [hkind]
  refine bind_eq_ok.mpr ⟨false, p, expandIdentifier_eq hfuel hname,
    bind_eq_ok.mpr ⟨p, p, rfl, ?_⟩⟩
  rw [htext]
  exact bind_eq_ok.mpr ⟨some v, q, hdefined, rfl⟩

/-- A token is handled as one round says. -/
theorem conditionItem_round (h : Round macros s (t :: ts) s') (hmacros : p.macros = macros)
    (htoken : p.token = t) (hoffers : Offers p (ts ++ ts') n) (hn : n < fuel) :
    ∃ q, conditionItem fuel s (Operator.ofKind? s.previous t.kind) p = .ok (.inl s', q)
      ∧ Reads p q ∧ Offers q ts' n := by
  subst hmacros htoken
  have hfuel : 0 < fuel := Nat.zero_lt_of_lt hn
  have hread (sorted : Sorted) : proceed sorted p = .ok (.inl ⟨sorted, p.token.kind⟩, p) := rfl
  cases h with
  | literal ht =>
    refine ⟨p, bind_eq_ok.mpr ⟨p, p, rfl, ?_⟩, .refl p, hoffers⟩
    rcases ht with ht | ht <;> rw [ht] at hread ⊢ <;> exact hread _
  | name ht hword hname =>
    refine ⟨p, bind_eq_ok.mpr ⟨p, p, rfl, ?_⟩, .refl p, hoffers⟩
    rw [ht] at hread ⊢
    refine bind_eq_ok.mpr ⟨false, p, expandIdentifier_eq hfuel hname,
      bind_eq_ok.mpr ⟨p, p, rfl, ?_⟩⟩
    simp only [operatorWords, List.mem_cons, List.not_mem_nil, or_false, not_or] at hword
    generalize p.token.text = text at hword
    split
    · exact absurd rfl hword.1
    · exact absurd rfl hword.2
    · exact hread _
  | defined hd ht =>
    obtain ⟨q, hdefined, hq⟩ := evaluateDefined_name hoffers hn ht
    exact ⟨q, conditionItem_defined hfuel hd hdefined, hq⟩
  | definedParen hd hbefore ht hafter =>
    obtain ⟨q, hdefined, hq⟩ := evaluateDefined_paren hoffers hn hbefore ht hafter
    exact ⟨q, conditionItem_defined hfuel hd hdefined, hq⟩
  | opening ht =>
    refine ⟨p, bind_eq_ok.mpr ⟨p, p, rfl, ?_⟩, .refl p, hoffers⟩
    rw [ht] at hread ⊢
    exact hread _
  | closing ht hclose =>
    refine ⟨p, bind_eq_ok.mpr ⟨p, p, rfl, ?_⟩, .refl p, hoffers⟩
    rw [ht] at hread ⊢
    rw [hclose]
    exact hread _
  | operator hop =>
    refine ⟨p, bind_eq_ok.mpr ⟨p, p, rfl, ?_⟩, .refl p, hoffers⟩
    rw [hop]
    generalize p.token.kind = kind at hop hread
    -- The kinds that are handled in front of operators are no operators.
    split
    · cases hop
    · cases hop
    · cases hop
    · cases hop
    · cases hop
    · exact hread _

theorem readConditionToken_end (h : Faces p []) :
    readConditionToken fuel s p = .ok (.inr (some s.sorted), p) := by
  have hend : atLineEnd p = .ok (true, p) :=
    bind_eq_ok.mpr ⟨p, p, rfl, by rw [h.nextKind_nil]; rfl⟩
  rw [readConditionToken_eq]
  exact bind_eq_ok.mpr ⟨true, p, hend, rfl⟩

/-- Where there is room, the next token of the line is read and handled, unless it is a blank. -/
theorem readConditionToken_next {r : (ConditionState ⊕ Option Sorted) × Preprocessor}
    (h : Faces p (t :: raw)) (hconsume : consume p = .ok (true, q)) (htoken : q.token = t)
    (hroom : s.sorted.size < conditionLimit) (hbackslash : t.kind ≠ .backslash)
    (hitem : (if t.kind = .space then pure (.inl s)
      else conditionItem fuel s (Operator.ofKind? s.previous t.kind)) q = .ok r) :
    readConditionToken fuel s p = .ok r := by
  obtain ⟨hnext, hnewline, heof⟩ := h.nextKind_cons
  have hgoes : atLineEnd p = .ok (false, p) :=
    bind_eq_ok.mpr ⟨p, p,
      rfl, by rw [hnext, decide_eq_false hnewline, decide_eq_false heof]; rfl⟩
  have hwaiting : s.sorted.waiting.length < conditionLimit := (Nat.le_add_right _ _).trans_lt hroom
  have hitems : s.sorted.items.length < conditionLimit := (Nat.le_add_left _ _).trans_lt hroom
  have hkept :
      (decide (s.sorted.waiting.length ≥ conditionLimit)
        || decide (s.sorted.items.length ≥ conditionLimit)) = false := by
    rw [decide_eq_false (Nat.not_le.mpr hwaiting), decide_eq_false (Nat.not_le.mpr hitems),
      Bool.or_false]
  rw [readConditionToken_eq]
  refine bind_eq_ok.mpr ⟨false, p, hgoes, ?_⟩
  rw [if_neg Bool.false_ne_true, hkept, if_neg Bool.false_ne_true]
  refine bind_eq_ok.mpr ⟨true, q, hconsume, bind_eq_ok.mpr ⟨q, q, rfl, ?_⟩⟩
  dsimp only
  rw [htoken]
  split at hitem
  · rename_i hspace
    rw [if_pos hspace]
    exact hitem
  · rename_i hspace
    rw [if_neg hspace, if_neg hbackslash]
    exact hitem

/-- What rounds do is done by reading the line to its end. -/
theorem Condition.Rounds.reads (h : Rounds macros s ts s') (hline : Faces p raw)
    (hwords : words raw = ts) (hmacros : p.macros = macros)
    (hroom : s.sorted.size + ts.length < conditionLimit) (hn : raw.length < n)
    (hfuel : raw.length < fuel) :
    ∃ q, repeatWith (readConditionToken fuel) n s p = .ok (some s'.sorted, q)
      ∧ Reads p q ∧ q.nextKind = .endOfLine := by
  -- By induction on the bound of the loop. A blank is read by a round that sorts nothing; any
  -- other token begins the next of the rounds that are given.
  induction n generalizing p s raw ts with
  | zero => cases hn
  | succ n ih =>
    cases raw with
    | nil =>
      obtain ⟨-, rfl⟩ | ⟨t, ts₁, ts₂, s₁, rfl, -, -⟩ := h.nil_or_cons
      · exact ⟨p, bind_eq_ok.mpr ⟨_, p, readConditionToken_end hline, rfl⟩, .refl p,
          hline.nextKind_nil⟩
      · cases hwords
    | cons t raw =>
      rw [List.length_cons] at hn hfuel
      by_cases hspace : t.kind = .space
      · have hother : t.kind ≠ .stringLiteral ∧ t.kind ≠ .backslash := hspace ▸ by decide
        obtain ⟨q, hconsume, hreads, hrest, htoken⟩ := hline.read hother.1
        have hround : readConditionToken fuel s p = .ok (.inl s, q) :=
          readConditionToken_next hline hconsume htoken (by omega) hother.2
            (by rw [if_pos hspace]; rfl)
        rw [words_space hspace] at hwords
        obtain ⟨q', hloop, hreads', hend⟩ :=
          ih h hrest hwords (hreads.macros_eq.trans hmacros) hroom (by omega) (by omega)
        exact ⟨q', bind_eq_ok.mpr ⟨_, q, hround, hloop⟩, hreads.trans hreads', hend⟩
      · rw [words_cons hspace] at hwords
        obtain ⟨hnil, -⟩ | ⟨_, ts₁, ts₂, s₁, heq, hfirst, hothers⟩ := h.nil_or_cons
        · rw [hnil] at hwords
          cases hwords
        obtain ⟨rfl, hwords⟩ := List.cons.inj (hwords.trans heq)
        have hother := kind_ne_of_round hfirst
        have hsize := hfirst.size_le
        rw [heq, List.length_cons, List.length_append] at hroom
        obtain ⟨q, hconsume, hreads, hrest, htoken⟩ := hline.read hother.1
        have hoffers : Offers q (ts₁ ++ ts₂) raw.length := ⟨raw, hrest, hwords, le_refl _⟩
        obtain ⟨q₁, hitem, hreads₁, raw', hrest', hwords', hlength⟩ :=
          conditionItem_round hfirst (hreads.macros_eq.trans hmacros) htoken hoffers
            (Nat.lt_of_succ_lt hfuel)
        have hround : readConditionToken fuel s p = .ok (.inl s₁, q₁) :=
          readConditionToken_next hline hconsume htoken (by omega) hother.2
            (by rw [if_neg hspace]; exact hitem)
        have hread := hreads.trans hreads₁
        obtain ⟨q', hloop, hreads', hend⟩ :=
          ih hothers hrest' hwords' (hread.macros_eq.trans hmacros) (by omega) (by omega) (by omega)
        exact ⟨q', bind_eq_ok.mpr ⟨_, q₁, hround, hloop⟩, hread.trans hreads', hend⟩

/-- The state behind an error at the current token. -/
def failing (p : Preprocessor) (message : String) : Preprocessor :=
  { p with
    diagnostics := p.diagnostics
      ++ [{ severity := .error, stage := .preprocessor, location := p.token.location, message }]
    success := false }

theorem error_eq (p : Preprocessor) (message : String) :
    error p.token.location message p = .ok ((), p.failing message) := by
  refine modify_eq_ok.mpr ?_
  rw [failing, decide_eq_false (not_not.mpr rfl), Bool.and_false]

/-- A condition has the value of the expression on its line, which is read to its end. Nothing
is reported, unless the expression divides by zero: then the condition does not hold, and that
is the one error. -/
theorem evaluateCondition_value {e : Condition.Expr} (hstart : endsOperand p.token.kind = false)
    (hline : Faces p raw) (hspells : e.Spells p.macros (words raw)) (hgrouped : e.Grouped)
    (hroom : (words raw).length < 128) (hfuel : raw.length < fuel) :
    ∃ q, Reads p q ∧ q.nextKind = .endOfLine ∧
      evaluateCondition fuel p = match e.value? p.macros with
        | some v => .ok (decide (v ≠ 0), q)
        | none => .ok (false, q.failing "division by zero in preprocessor expression") := by
  let start : ConditionState := { previous := p.token.kind }
  obtain ⟨s', hrounds, hbehind⟩ := hspells.rounds (s := start) hgrouped hstart (waits_nil _)
  have hempty : start.sorted.size + (words raw).length < conditionLimit :=
    (Nat.zero_add _).trans_lt hroom
  obtain ⟨q, hloop, hreads, hend⟩ := hrounds.reads hline rfl rfl hempty hfuel hfuel
  have hword : Represents (evaluate (e.items p.macros)) (e.value? p.macros) := by
    rw [Expr.evaluate_items]
    exact e.represents_word
  refine ⟨q, hreads, hend, ?_⟩
  cases hvalue : e.value? p.macros with
  | some v =>
    rw [hvalue] at hword
    obtain ⟨w, hw, rfl⟩ := hword
    refine bind_eq_ok.mpr ⟨p, p, rfl, bind_eq_ok.mpr ⟨_, q, hloop, ?_⟩⟩
    simp only [hbehind.finish, hw, ne_eq, signed_eq_zero]
    rfl
  | none =>
    rw [hvalue] at hword
    refine bind_eq_ok.mpr ⟨p, p, rfl, bind_eq_ok.mpr ⟨_, q, hloop, ?_⟩⟩
    simp only [hbehind.finish, show evaluate (e.items p.macros) = _ from hword]
    exact bind_eq_ok.mpr ⟨q, q, rfl, bind_eq_ok.mpr ⟨(), _, error_eq q _, rfl⟩⟩

/-- The state behind `#if` on a line. -/
private def behindIf : Preprocessor :=
  { Setting.state ⟨{}, [], "m"⟩ ⟨[("A", {})], ⟨"m", 1, 4⟩⟩ " -2 < defined A".toList with
    token := { kind := .hashIf } }

private def lineBehindIf : List Token :=
  (behindIf.stack.head?.bind fun input => lineAhead 20 input.next input.cursor).getD []

private def wordBehindIf (i : Nat) : Token :=
  (words lineBehindIf).getD i {}

private def comparison : Condition.Expr :=
  .binary .less (.sign .minus (.literal (wordBehindIf 1).word)) (.defined (wordBehindIf 4).text)

private theorem spells_comparison : comparison.Spells behindIf.macros (words lineBehindIf) := by
  obtain ⟨hwords, hminus, hliteral, hless, hdefined, htext, hname⟩ :
      words lineBehindIf = [wordBehindIf 0, wordBehindIf 1]
        ++ wordBehindIf 2 :: [wordBehindIf 3, wordBehindIf 4]
        ∧ (wordBehindIf 0).kind = .minus ∧ (wordBehindIf 1).kind = .intLiteral
        ∧ (wordBehindIf 2).kind = .less
        ∧ (wordBehindIf 3).kind = .identifier
        ∧ (wordBehindIf 3).text = "defined" ∧ (wordBehindIf 4).kind = .identifier := by
    decide +kernel
  have hasks : AsksDefined behindIf.macros (wordBehindIf 3) :=
    ⟨hdefined, htext, by rw [htext]; decide⟩
  rw [hwords]
  exact .binary hless (.sign hminus (.literal (.inl hliteral))) (.defined hasks hname)

/-- A sign binds more tightly than a comparison, and a macro that is defined counts as 1. -/
theorem evaluateCondition_value_comparison :
    endsOperand behindIf.token.kind = false ∧ Faces behindIf lineBehindIf
      ∧ comparison.Spells behindIf.macros (words lineBehindIf)
      ∧ comparison.Grouped ∧ (words lineBehindIf).length < 128
      ∧ lineBehindIf.length < 100 ∧ comparison.value? behindIf.macros = some 1
      ∧ ∃ q, Reads behindIf q ∧ evaluateCondition 100 behindIf = .ok (true, q) := by
  have hline : Faces behindIf lineBehindIf := ⟨_, 20, rfl, by decide +kernel⟩
  have hgrouped : comparison.Grouped := ⟨⟨trivial, rfl⟩, trivial, by decide, by decide⟩
  have hvalue : comparison.value? behindIf.macros = some 1 := by decide +kernel
  have hroom : (words lineBehindIf).length < 128 := by decide +kernel
  have hfuel : lineBehindIf.length < 100 := by decide +kernel
  obtain ⟨q, hreads, -, hq⟩ :=
    evaluateCondition_value rfl hline spells_comparison hgrouped hroom hfuel
  rw [hvalue] at hq
  exact ⟨rfl, hline, spells_comparison, hgrouped, hroom, hfuel, hvalue, q, hreads, hq⟩

/-- The words that are operators are no names: `exists` asks for a file, although it is no macro.
Where `defined` is a macro, it is replaced and does not ask for another one. -/
theorem evaluateCondition_operatorWord :
    isReplaced [] "exists" = false
      ∧ (appendString 100 "#if exists\nyes\n#endif\n" "m" {}).toOption.map
        (fun r => (r.1, r.2.diagnostics.map (·.message)))
        = some (false, ["syntax error: unexpected token '\n'"])
      ∧ (appendString 100 "#if defined X\nyes\n#endif\n" "m"
          { macros := [("defined", { replacement := [.text "1"] })] }).toOption.map
            (fun r => (r.1, r.2.diagnostics.map (·.message)))
        = some (false, ["invalid expression"]) := by
  decide +kernel

end ShaderEffect.Preprocessor
