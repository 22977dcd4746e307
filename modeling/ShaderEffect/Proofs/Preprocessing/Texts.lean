import ShaderEffect.Proofs.Preprocessing.Groups

namespace ShaderEffect.Preprocessor

open Surroundings
open Token (Cursor IsWhole)

variable {e : Setting} {text rest line : List Char} {serial fuel k l n : Nat} {σ σ' : Scope}
  {p p' q : Preprocessor}

/-- What is done with a token that was read. -/
def handleToken (fuel : Nat) (line : String) : PreM (String ⊕ String) := do
  match conditional? fuel (← get).token.kind with
  | some run =>
    run
    endDirective fuel
    return .inl line
  | none =>
    if (← get).isSkipping then return .inl line
    return .inl (← processToken fuel line)

theorem processNext_eq_ok {line : String} {r : String ⊕ String} {p₀ : Preprocessor}
    (hconsume : consume p = .ok (true, p₀))
    (h : handleToken fuel line { p₀ with expansions := 0 } = .ok (r, p')) :
    processNext fuel line p = .ok (r, p') :=
  bind_eq_ok.mpr ⟨true, p₀, hconsume, bind_eq_ok.mpr ⟨(), _, modify_eq_ok.mpr rfl, h⟩⟩

/-- Whether a token adds a text to the line that is being written, where some groups are open and
some macros are defined. -/
def Adds (fuel : Nat) (groups : List Group) (macros : List (String × Macro)) (t : Token)
    (out : String) : Prop :=
  ∀ line p, p.token.kind = t.kind → p.token.raw = t.raw →
    p.token.text = t.text → p.groups = groups → p.macros = macros →
    handleToken fuel line p = .ok (.inl (line ++ out), p)

theorem conditional?_eq_none {kind : Token.Kind} (h : kind ∉ conditionalKinds) :
    conditional? fuel kind = none := by
  unfold conditional?
  split <;> first | rfl | exact absurd (by decide) h

/-- Where nothing is selected, a token adds nothing. -/
theorem adds_of_skipping {groups : List Group} {macros : List (String × Macro)} {t : Token}
    (h : isActive groups = false)
    (hkind : t.kind ∉ conditionalKinds) : Adds fuel groups macros t "" := by
  intro line p hp _ _ hgroups _
  refine bind_eq_ok.mpr ⟨_, _, get_eq_ok.mpr ⟨rfl, rfl⟩, ?_⟩
  simp only [hp, conditional?_eq_none hkind]
  refine bind_eq_ok.mpr ⟨_, _, get_eq_ok.mpr ⟨rfl, rfl⟩, ?_⟩
  rw [isSkipping_eq, hgroups, h, Bool.not_false, if_pos rfl, String.append_empty]
  rfl

theorem builtinText?_eq_none {name : String} {location : Location} (h : isBuiltin name = false) :
    builtinText? name location = none := by
  unfold isBuiltin at h
  unfold builtinText? at h ⊢
  split at h <;> first | rfl | cases h

/-- A name that stands for nothing else is written as it is. -/
theorem expandIdentifier_eq (hfuel : 0 < fuel) (h : isReplaced p.macros p.token.text = false) :
    expandIdentifier fuel p = .ok (false, p) := by
  obtain ⟨fuel, rfl⟩ := Nat.exists_eq_add_one_of_ne_zero hfuel.ne'
  obtain ⟨hfree, hbuiltin⟩ := Bool.or_eq_false_iff.mp h
  have hfind : p.findMacro? p.token.text = none := by simpa [findMacro?] using hfree
  unfold expandIdentifier
  refine bind_eq_ok.mpr ⟨_, _, get_eq_ok.mpr ⟨rfl, rfl⟩, ?_⟩
  simp only [builtinText?_eq_none hbuiltin, hfind]
  rfl

theorem directive?_eq_none {kind : Token.Kind} (h : kind ∈ .stringLiteral :: writtenKinds) :
    directive? fuel kind = none := by
  unfold directive?
  split <;> first | rfl | exact absurd h (by decide)

theorem processToken_eq {line : String} (hfuel : 0 < fuel)
    (hkind : p.token.kind ∈ .stringLiteral :: writtenKinds)
    (hname : p.token.kind = .identifier → isReplaced p.macros p.token.text = false) :
    processToken fuel line p = .ok (line ++ p.token.raw, p) := by
  refine bind_eq_ok.mpr ⟨_, _, get_eq_ok.mpr ⟨rfl, rfl⟩, ?_⟩
  simp only [directive?_eq_none hkind]
  generalize p.token.kind = kind at hkind hname
  split
  · exact absurd hkind (by decide)
  · exact absurd hkind (by decide)
  · exact absurd hkind (by decide)
  · exact bind_eq_ok.mpr ⟨false, _, expandIdentifier_eq hfuel (hname rfl), rfl⟩
  · rfl

/-- Where text is selected, a token of it adds what it was read from. -/
theorem adds_of_text {groups : List Group} {macros : List (String × Macro)} {t : Token}
    (hfuel : 0 < fuel) (h : isActive groups = true)
    (hkind : t.kind ∈ .stringLiteral :: writtenKinds)
    (hname : t.kind = .identifier → isReplaced macros t.text = false) :
    Adds fuel groups macros t t.raw := by
  intro line p hp hraw htext hgroups hmacros
  have hnone : t.kind ∉ conditionalKinds :=
    (by decide : ∀ kind ∈ .stringLiteral :: writtenKinds, kind ∉ conditionalKinds) _ hkind
  rw [← hp] at hkind hname
  rw [← htext, ← hmacros] at hname
  refine bind_eq_ok.mpr ⟨_, _, get_eq_ok.mpr ⟨rfl, rfl⟩, ?_⟩
  simp only [hp, conditional?_eq_none hnone]
  refine bind_eq_ok.mpr ⟨_, _, get_eq_ok.mpr ⟨rfl, rfl⟩, ?_⟩
  rw [isSkipping_eq, hgroups, h, Bool.not_true, if_neg Bool.false_ne_true, ← hraw]
  exact bind_eq_ok.mpr ⟨_, _, processToken_eq hfuel hkind hname, rfl⟩

/-- What is left of a text that is read in its surroundings. -/
theorem lex_within (k : Nat) (rest : List Char) {c : Cursor} (hwhole : IsWhole c.rest)
    (hnext : (Token.lex lexOptions c).1.kind = .endOfLine
      ∨ (Token.lex lexOptions c).2.rest ≠ []) :
    Token.lex lexOptions (c.within k rest) =
      ((Token.lex lexOptions c).1.shift k, (Token.lex lexOptions c).2.within k rest) :=
  Token.lexFrom_within k rest lexOptions _ c rfl hwhole hnext

/-- The tokens of a text are read one after the other. -/
theorem tokens_cases {c : Cursor} {r : List Token × Token × Cursor} (h : tokens n c = some r) :
    ((Token.lex lexOptions c).1.kind = .endOfLine
      ∧ (Token.lex lexOptions c).2.rest = [] ∧ r = ([], Token.lex lexOptions c)) ∨
      (Token.lex lexOptions c).2.rest ≠ []
        ∧ ∃ m s, n = m + 1 ∧ tokens m (Token.lex lexOptions c).2 = some s ∧
        r = ((Token.lex lexOptions c).1 :: s.1, s.2) := by
  cases n with
  | zero => cases h
  | succ n =>
    rw [tokens_succ] at h
    unfold following at h
    split at h
    · split at h
      · exact .inl ⟨‹_›, ‹_›, (Option.some.inj h).symm⟩
      · cases h
    · obtain ⟨s, hs, rfl⟩ := Option.map_eq_some_iff.mp h
      exact .inr ⟨‹_›, n, s, rfl, hs, rfl⟩

theorem next_of_tokens {c : Cursor} {r : List Token × Token × Cursor} (h : tokens n c = some r) :
    (Token.lex lexOptions c).1.kind = .endOfLine ∨ (Token.lex lexOptions c).2.rest ≠ [] := by
  obtain ⟨hkind, -⟩ | ⟨hrest, -⟩ := tokens_cases h
  · exact .inl hkind
  · exact .inr hrest

theorem lex_spans (c : Cursor) :
    Token.Spans c (Token.lex lexOptions c).1 (Token.lex lexOptions c).2 :=
  Token.lexFrom_spans lexOptions _ c

theorem isWhole_behind {c : Cursor} (hwhole : IsWhole c.rest)
    (hrest : (Token.lex lexOptions c).2.rest ≠ []) :
    IsWhole (Token.lex lexOptions c).2.rest :=
  hwhole.of_suffix (lex_spans c).reaches.suffix hrest

/-- The tokens of a text end with the newline at its end. -/
theorem tokens_ends {c : Cursor} {r : List Token × Token × Cursor} (hwhole : IsWhole c.rest)
    (h : tokens n c = some r) :
    r.2.1.kind = .endOfLine
      ∧ r.2.2.rest = [] ∧ r.2.2.location.column = 1 ∧ c.Reaches r.2.2 := by
  induction n generalizing c r with
  | zero => cases h
  | succ n ih =>
    have hspans := lex_spans c
    obtain ⟨hkind, hrest, rfl⟩ | ⟨hrest, m, s, hm, hs, rfl⟩ := tokens_cases h
    · exact ⟨hkind, hrest, (hspans.newline hkind).2, hspans.reaches⟩
    · obtain rfl := Nat.succ.inj hm
      obtain ⟨hkind, hend, hcolumn, hreaches⟩ := ih (isWhole_behind hwhole hrest) hs
      exact ⟨hkind, hend, hcolumn, hspans.reaches.trans hreaches⟩

/-- The source at a place that was reached while its line was read. -/
def inputAt (e : Setting) (text : List Char) (serial : Nat) (next : Token) (cursor : Cursor) :
    Input where
  name := e.source
  text := text
  cursor := cursor
  next := next
  hidden := []
  isArgument := false
  serial := serial

/-- The tokens of a line are handled one after the other, up to its newline. -/
theorem tokens_passes {c : Cursor} {r : List Token × Token × Cursor} (out : Token → String)
    (hwhole : IsWhole c.rest) (h : tokens n c = some r)
    (hadds : ∀ t ∈ r.1, Adds fuel p.groups p.macros t (out t))
    (hclosed : ∀ t ∈ r.1, t.kind = .stringLiteral → isClosed t.raw = true)
    (hsource : p.reached.source = e.source) (hlevel : p.nextLevel = 0)
    (hstack : p.stack = [e.input text serial (c.within k rest)]) (line : String) :
    ∃ level token expansions, Passes fuel r.1.length line p (line ++ String.join (r.1.map out))
      { p with
        level, token, expansions
        stack := [inputAt e text serial (r.2.1.shift k) (r.2.2.within k rest)] } := by
  -- By induction on the bound of the scan. The token that is read ahead in one step is the one
  -- that the next step handles.
  induction n generalizing c r p line with
  | zero => cases h
  | succ n ih =>
    have hlex := lex_within k rest hwhole (next_of_tokens h)
    have hinput : e.input text serial (c.within k rest) =
        inputAt e text serial ((Token.lex lexOptions c).1.shift k)
          ((Token.lex lexOptions c).2.within k rest) := by
      simp only [Setting.input, hlex, inputAt]
    obtain ⟨-, -, rfl⟩ | ⟨hrest, m, s, hm, hs, rfl⟩ := tokens_cases h
    · refine ⟨p.level, p.token, p.expansions, ?_⟩
      rw [← hinput, ← hstack, List.map_nil, String.join_nil, String.append_empty]
      exact Passes.refl
    · obtain rfl := Nat.succ.inj hm
      have hwhole' := isWhole_behind hwhole hrest
      have hlex' := lex_within k rest hwhole' (next_of_tokens hs)
      have hnext : (Token.lex lexOptions (e.input text serial (c.within k rest)).cursor).1.kind
          ≠ .eof := by
        rw [hinput]
        show (Token.lex lexOptions ((Token.lex lexOptions c).2.within k rest)).1.kind ≠ .eof
        rw [hlex']
        exact ne_eof_of_next (next_of_tokens hs)
      have hconsume := consume_of_next hlevel (congrArg List.head? hstack) hsource.symm
        (by rw [hinput]; exact hclosed (Token.lex lexOptions c).1 List.mem_cons_self) hnext
      rw [hinput] at hconsume
      let p₁ : Preprocessor :=
        { movedIn p (inputAt e text serial ((Token.lex lexOptions c).1.shift k)
          ((Token.lex lexOptions c).2.within k rest)) with
          expansions := 0 }
      have hhandle :=
        hadds (Token.lex lexOptions c).1 List.mem_cons_self line p₁ rfl rfl rfl rfl rfl
      have hfirst := passes_of_next (processNext_eq_ok hconsume hhandle)
      obtain ⟨level, token, expansions, hrest⟩ :=
        ih (p := p₁) hwhole' hs (fun t ht => hadds t (List.mem_cons_of_mem _ ht))
          (fun t ht => hclosed t (List.mem_cons_of_mem _ ht)) hsource hlevel rfl
          (line ++ out (Token.lex lexOptions c).1)
      refine ⟨level, token, expansions, ?_⟩
      rw [List.length_cons, List.map_cons, String.join_cons, ← String.append_assoc, Nat.add_comm]
      exact hfirst.trans hrest

theorem tokens_length_lt {c : Cursor} {r : List Token × Token × Cursor}
    (h : tokens n c = some r) : r.1.length < n := by
  induction n generalizing c r with
  | zero => cases h
  | succ n ih =>
    obtain ⟨-, -, rfl⟩ | ⟨-, m, s, hm, hs, rfl⟩ := tokens_cases h
    · exact Nat.succ_pos n
    · obtain rfl := Nat.succ.inj hm
      exact Nat.succ_lt_succ (ih hs)

/-- The tokens of the line that starts in a state are handled up to its newline. -/
theorem Ahead.tokens {r : List Token × Token × Cursor} (out : Token → String)
    (hp : Ahead e text serial σ (line ++ '\n' :: rest) p) (hwhole : IsWhole (line ++ ['\n']))
    (h : tokens (line.length + 1) (Setting.cursor σ line) = some r)
    (hadds : ∀ t ∈ r.1, Adds fuel p.groups p.macros t (out t))
    (hclosed : ∀ t ∈ r.1, t.kind = .stringLiteral → isClosed t.raw = true)
    (hbegins : rest ≠ [] → Begins { σ with location := r.2.2.location } rest)
    (hends : rest = [] → p.groups = []) :
    ∃ p' t, Passes fuel r.1.length "" p (String.join (r.1.map out)) p'
      ∧ t.location = r.2.1.location ∧
      AtNewline e text serial { σ with location := r.2.2.location } rest t p' ∧
      p'.groups = p.groups ∧ p'.output = p.output ∧ p'.reached = p.reached := by
  obtain ⟨before, rfl⟩ := hp.suffix
  obtain ⟨hnewline, hend, hcolumn, n, hn, hdrop, hoffset⟩ := tokens_ends hwhole h
  -- The line was scanned alone. Its cursor is carried over to the text around it, where the
  -- line begins behind `before`.
  have hlength : r.2.2.offset = line.length + 1 := by
    rw [hend] at hdrop
    have hle := List.drop_eq_nil_iff.mp hdrop.symm
    have htext : (Setting.cursor σ line).rest.length = line.length + 1 := List.length_append
    have hzero : (Setting.cursor σ line).offset = 0 := rfl
    omega
  have hstart : place (before ++ (line ++ '\n' :: rest)) σ (line ++ '\n' :: rest) =
      (Setting.cursor σ line).within before.length rest := by
    rw [place, List.length_append, Nat.add_sub_cancel]
    simp [Setting.cursor, Cursor.within]
  have hstop : r.2.2.within before.length rest =
      place (before ++ (line ++ '\n' :: rest)) { σ with location := r.2.2.location } rest := by
    have hrest : (before ++ (line ++ '\n' :: rest)).length - rest.length
        = line.length + 1 + before.length := by
      simp only [List.length_append, List.length_cons]
      omega
    rw [place, hrest, Cursor.within, hend, hlength, List.nil_append]
  have hstack :
      p.stack = [e.input (before ++ (line ++ '\n' :: rest)) serial
        ((Setting.cursor σ line).within before.length rest)] := by
    rw [hp.stack, if_neg (List.append_ne_nil_of_right_ne_nil _ (List.cons_ne_nil _ _)), hstart]
  obtain ⟨level, token, expansions, hpasses⟩ := tokens_passes out hwhole h hadds hclosed
    (congrArg Setting.source hp.setting) hp.nextLevel hstack ""
  rw [String.empty_append, hstop] at hpasses
  refine ⟨_, r.2.1.shift before.length, hpasses, rfl, ?_, rfl, rfl, rfl⟩
  exact ⟨hp.setting, hp.macros, hcolumn, hp.success, hp.overflow, hp.pushed, hp.level_eq,
    hp.nextLevel, ⟨before ++ (line ++ ['\n']), by simp⟩, hnewline, rfl, hbegins, hends⟩

/-- A line that is left out is passed over. -/
theorem passed_reached {r : List Token × Token × Cursor}
    (hp : Ahead e text serial σ (line ++ '\n' :: rest) p) (hwhole : IsWhole (line ++ ['\n']))
    (h : tokens (line.length + 1) (Setting.cursor σ line) = some r)
    (hactive : isActive p.groups = false) (hpassed : ∀ t ∈ r.1, isPassed t = true)
    (hbegins : rest ≠ [] → Begins { σ with location := r.2.2.location } rest)
    (hends : rest = [] → p.groups = []) :
    ∃ p', Reached fuel (line.length + 1) e text serial { σ with location := r.2.2.location } rest
      [] p p' ∧ p'.groups = p.groups := by
  have hkinds :
      ∀ t ∈ r.1, t.kind ∉ conditionalKinds
        ∧ (t.kind = .stringLiteral → isClosed t.raw = true) := by
    intro t ht
    have := hpassed t ht
    simp only [isPassed, Bool.and_eq_true, Bool.not_eq_true', List.contains_eq_mem,
      decide_eq_false_iff_not, Bool.or_eq_true, decide_eq_true_eq] at this
    exact ⟨this.1, fun hkind => this.2.resolve_left fun hne => hne hkind⟩
  -- In a branch that is left out, a token that begins no conditional directive adds nothing.
  have hadds : ∀ t ∈ r.1, Adds fuel p.groups p.macros t "" :=
    fun t ht => adds_of_skipping hactive (hkinds t ht).1
  obtain ⟨p₁, t, hpasses, -, hnewline, hgroups, houtput, hreached⟩ :=
    hp.tokens (fun _ => "") hwhole h hadds (fun t ht => (hkinds t ht).2) hbegins hends
  have hrest : rest ≠ [] := by
    intro hnil
    rw [hends hnil] at hactive
    cases hactive
  have hjoin : String.join (r.1.map fun _ => "") = "" := by
    induction r.1 with
    | nil => rfl
    | cons t ts ih => rw [List.map_cons, String.join_cons, ih, String.append_empty]
  rw [hjoin] at hpasses
  obtain ⟨stack, hconsume, hahead⟩ := hnewline.consume
  rw [decide_eq_true hrest] at hconsume
  have hend : Adds fuel p.groups p₁.macros t "" := by
    refine adds_of_skipping hactive ?_
    rw [hnewline.newline]
    decide
  have hlast := passes_of_next (processNext_eq_ok hconsume
    (hend "" { moved p₁ t stack with expansions := 0 } rfl rfl rfl hgroups rfl))
  refine ⟨_,
    ⟨(hpasses.trans hlast).mono (Nat.succ_le_succ (Nat.le_of_lt_succ (tokens_length_lt h))), ?_,
      ?_, ?_⟩, hgroups⟩
  · exact ⟨hahead.setting, hahead.macros, hahead.column, hahead.success, hahead.overflow,
      hahead.pushed, hahead.level_eq,
      hahead.nextLevel, hahead.suffix, hahead.stack, hahead.begins, hahead.closed⟩
  · rw [rendered, String.append_empty]
    exact houtput
  · exact congrArg (·.line) hreached

/-- The state in which a line was written. -/
def flushed (line : String) (p : Preprocessor) : Preprocessor :=
  if line = "" then p
  else
    { p with
      output := p.output ++ (if p.reached.line + 1 = p.token.location.line then ""
        else lineDirective p.token.location.line none) ++ line ++ "\n"
      reached := { p.reached with line := p.token.location.line } }

theorem flushLine_eq (line : String) (p : Preprocessor) :
    flushLine line p = .ok ((), flushed line p) := rfl

theorem flushed_ahead (line : String) {s : Preprocessor} (h : Ahead e text serial σ rest s) :
    Ahead e text serial σ rest (flushed line s) ∧ (flushed line s).groups = s.groups := by
  unfold flushed
  split
  · exact ⟨h, rfl⟩
  · exact ⟨⟨h.setting, h.macros, h.column, h.success, h.overflow, h.pushed, h.level_eq,
      h.nextLevel, h.suffix, h.stack, h.begins, h.closed⟩, rfl⟩

/-- The line of text that ends with the newline that was read is written. -/
theorem flushed_output (line : List Char) {s : Preprocessor}
    (hline : s.token.location.line = σ.location.line) :
    (flushed (String.ofList (chop (dedent line))) s).output
      = s.output ++ rendered s.reached.line (textLine σ line) ∧
      (flushed (String.ofList (chop (dedent line))) s).reached.line
        = lastLine s.reached.line (textLine σ line) := by
  unfold flushed textLine
  by_cases hnil : chop (dedent line) = []
  · rw [if_pos (by rw [hnil]), if_pos hnil]
    exact ⟨(String.append_empty).symm, rfl⟩
  · rw [if_neg (by simpa using hnil), if_neg hnil, hline]
    refine ⟨?_, rfl⟩
    rw [rendered, rendered, String.append_empty]
    simp only [String.append_assoc]

/-- A newline ends the line that is being written. -/
theorem handleToken_newline {line : String} (hkind : p.token.kind = .endOfLine)
    (hactive : isActive p.groups = true) :
    handleToken fuel line p = .ok (.inl "", flushed line p) := by
  refine bind_eq_ok.mpr ⟨_, _, get_eq_ok.mpr ⟨rfl, rfl⟩, ?_⟩
  simp only [hkind, conditional?]
  refine bind_eq_ok.mpr ⟨_, _, get_eq_ok.mpr ⟨rfl, rfl⟩, ?_⟩
  rw [isSkipping_eq, hactive, Bool.not_true, if_neg Bool.false_ne_true]
  refine bind_eq_ok.mpr ⟨"", _,
    bind_eq_ok.mpr ⟨_, _, get_eq_ok.mpr ⟨rfl, rfl⟩, ?_⟩, rfl⟩
  simp only [hkind, directive?]
  rfl

/-- Behind the source a run ends at once. -/
theorem processNext_of_nil {line : String} (hstack : p.stack = [])
    (hlevel : p.level = p.nextLevel) :
    processNext fuel line p = .ok (.inr line, p) := by
  have hsame : { p with level := p.nextLevel } = p := by
    cases p
    cases hlevel
    rfl
  exact bind_eq_ok.mpr ⟨false, p, (consume_of_nil hstack).trans (by rw [hsame]), rfl⟩

/-- The newline of a line that was read is written with the line. -/
theorem AtNewline.flush (fuel : Nat) (line : String) {t : Token}
    (h : AtNewline e text serial σ rest t p) (hactive : isActive p.groups = true) :
    ∃ s, Passes fuel 1 line p "" (flushed line s)
      ∧ Ahead e text serial σ rest s ∧ s.token = t ∧ s.groups = p.groups ∧
      s.output = p.output ∧ s.reached = p.reached := by
  obtain ⟨stack, hconsume, hahead⟩ := h.consume
  by_cases hrest : rest = []
  · refine ⟨moved p t stack, ?_, hahead, rfl, rfl, rfl, rfl⟩
    have hstack : (flushed line (moved p t stack)).stack = [] := by
      rw [(flushed_ahead line hahead).1.stack, if_pos hrest]
    have hlevel :
        (flushed line (moved p t stack)).level = (flushed line (moved p t stack)).nextLevel := by
      rw [(flushed_ahead line hahead).1.nextLevel]
      unfold flushed
      split <;> rfl
    intro n q hruns
    -- Nothing is left of the source, and the last line was written.
    obtain rfl : flushed line (moved p t stack) = q := by
      obtain ⟨n, rfl⟩ : ∃ m, n = m + 1 :=
        Nat.exists_eq_add_one_of_ne_zero (by rintro rfl; exact not_runs_zero hruns)
      obtain ⟨_, _, hnext, -⟩ | ⟨_, _, hnext, hflush⟩ := runs_succ.mp hruns
      · rw [processNext_of_nil hstack hlevel] at hnext
        cases hnext
      · rw [processNext_of_nil hstack hlevel] at hnext
        cases hnext
        rw [flushLine_eq] at hflush
        exact congrArg Prod.snd (Except.ok.inj hflush)
    rw [decide_eq_false (not_not.mpr hrest)] at hconsume
    exact runs_succ.mpr (.inr ⟨line, _, bind_eq_ok.mpr ⟨false, _, hconsume, rfl⟩, rfl⟩)
  · rw [decide_eq_true hrest] at hconsume
    refine ⟨{ moved p t stack with expansions := 0 }, ?_, ?_, rfl, rfl, rfl, rfl⟩
    · exact passes_of_next (processNext_eq_ok hconsume (handleToken_newline h.newline hactive))
    · exact ⟨hahead.setting, hahead.macros, hahead.column, hahead.success, hahead.overflow,
        hahead.pushed, hahead.level_eq,
        hahead.nextLevel, hahead.suffix, hahead.stack, hahead.begins, hahead.closed⟩

/-- A line of text that is selected is written. -/
theorem text_reached (hfuel : 0 < fuel) (hp : Ahead e text serial σ (line ++ '\n' :: rest) p)
    (htext : IsText line) (hactive : isActive p.groups = true) (hfree : hasNoMacro σ line = true)
    (hbegins : rest ≠ [] → Begins { σ with location := σ.location.nextLine } rest)
    (hends : rest = [] → p.groups = []) :
    ∃ p', Reached fuel (line.length + 1) e text serial
      { σ with location := σ.location.nextLine } rest (textLine σ line) p p' ∧
      p'.groups = p.groups := by
  obtain ⟨r, hr, hspelled⟩ :=
    tokens_plain (c := Setting.cursor σ line) (line.length + 1) htext rfl hp.column
      (Nat.lt_succ_self _)
  have hstop : r.2.2.location = σ.location.nextLine := by
    rw [hspelled.stop]
    rfl
  have hname : ∀ t ∈ r.1, t.kind = .identifier → isReplaced p.macros t.text = false := by
    intro t ht hkind
    simp only [hasNoMacro, hr, Option.all_some, List.all_eq_true] at hfree
    have := hfree t ht
    rw [hkind, decide_eq_true rfl, Bool.true_and, Bool.not_eq_true'] at this
    rwa [hp.macros]
  have hstring : ∀ t ∈ r.1, t.kind = .stringLiteral → isClosed t.raw = true :=
    fun t ht hkind =>
    absurd (hkind ▸ hspelled.kinds t ht) (by decide)
  have hadds : ∀ t ∈ r.1, Adds fuel p.groups p.macros t t.raw := fun t ht =>
    adds_of_text hfuel hactive (List.mem_cons_of_mem _ (hspelled.kinds t ht)) (hname t ht)
  rw [← hstop] at hbegins ⊢
  obtain ⟨p₁, t, hpasses, hlocation, hnewline, hgroups, houtput, hreached⟩ :=
    hp.tokens (·.raw) (isWhole_of_text htext) hr hadds hstring hbegins hends
  rw [hspelled.raws] at hpasses
  obtain ⟨s, hflush, hahead, rfl, hgroups', houtput', hreached'⟩ :=
    hnewline.flush fuel (String.ofList (chop (dedent line))) (hgroups ▸ hactive)
  obtain ⟨hahead', hgroups''⟩ := flushed_ahead (String.ofList (chop (dedent line))) hahead
  obtain ⟨hout, hline⟩ :=
    flushed_output line (hlocation ▸ hspelled.line : s.token.location.line = σ.location.line)
  refine ⟨_,
    ⟨(hpasses.trans hflush).mono (Nat.succ_le_succ (Nat.le_of_lt_succ (tokens_length_lt hr))),
      hahead', ?_, ?_⟩, hgroups''.trans (hgroups'.trans hgroups)⟩
  · rw [hout, houtput', houtput, hreached', hreached]
  · rw [hline, hreached', hreached]

end ShaderEffect.Preprocessor
