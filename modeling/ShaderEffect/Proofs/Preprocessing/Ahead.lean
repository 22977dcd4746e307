import ShaderEffect.Proofs.Preprocessing.Directives
import ShaderEffect.Proofs.Preprocessing.Lines

namespace ShaderEffect.Preprocessor

open Surroundings
open Token (Cursor IsWhole)

variable {α : Type}

/-- Whether the first token of a text is not its end, wherever the text stands. -/
def Begins (σ : Scope) (text : List Char) : Prop :=
  ∀ n, (Token.lex lexOptions { rest := text, offset := n, location := σ.location }).1.kind
    ≠ .eof

/-- Whether a line can be read without the lines behind it. -/
structure Opens (σ : Scope) (line : List Char) : Prop where
  whole : IsWhole (line ++ ['\n'])
  next : (Token.lex lexOptions (Setting.cursor σ line)).1.kind = .endOfLine ∨
    (Token.lex lexOptions (Setting.cursor σ line)).2.rest ≠ []

theorem isWhole_of_notContinued {line : List Char} (h : line.getLast? ≠ some '\\') :
    IsWhole (line ++ ['\n']) :=
  ⟨List.getLast?_concat, by rwa [List.dropLast_concat]⟩

theorem isWhole_of_text {line : List Char} (h : IsText line) : IsWhole (line ++ ['\n']) :=
  isWhole_of_notContinued fun hlast => by
    obtain ⟨front, hfront⟩ := List.getLast?_eq_some_iff.mp hlast
    exact h.plain.backslash ⟨front, hfront.symm⟩

theorem ne_eof_of_next {c : Cursor}
    (h : (Token.lex lexOptions c).1.kind = .endOfLine ∨ (Token.lex lexOptions c).2.rest ≠ []) :
    (Token.lex lexOptions c).1.kind ≠ .eof := by
  obtain hkind | hrest := h
  · rw [hkind]
    exact Token.Kind.noConfusion
  · exact fun heof => hrest ((Token.lexFrom_spans lexOptions _ c).ended heof)

theorem Opens.begins {σ : Scope} {line more : List Char} (h : Opens σ line) :
    Begins σ (line ++ '\n' :: more) := by
  intro n
  have hlex :=
    Token.lexFrom_within n more lexOptions (σ.location.column ≤ 1) (Setting.cursor σ line) rfl
      h.whole h.next
  have hplace : (Setting.cursor σ line).within n more
      = { rest := line ++ '\n' :: more, offset := n, location := σ.location } := by
    simp [Setting.cursor, Cursor.within]
  rw [hplace] at hlex
  rw [Token.lex, hlex]
  exact ne_eof_of_next h.next

/-- The place in a text where the rest starts. -/
def place (text : List Char) (σ : Scope) (rest : List Char) : Cursor :=
  { rest, offset := text.length - rest.length, location := σ.location }

/-- Whether a line of the source starts, given what is left of the source. -/
structure Ahead (e : Setting) (text : List Char) (serial : Nat) (σ : Scope) (rest : List Char)
    (p : Preprocessor) : Prop where
  setting : p.setting = e
  macros : p.macros = σ.macros
  column : σ.location.column = 1
  success : p.success = true
  overflow : p.overflow = false
  pushed : serial < p.pushed
  level_eq : ∀ g ∈ p.groups, g.level = 0
  nextLevel : p.nextLevel = 0
  suffix : rest <:+ text
  stack : p.stack = if rest = [] then [] else [e.input text serial (place text σ rest)]
  begins : rest ≠ [] → Begins σ rest
  closed : rest = [] → p.groups = []

variable {e : Setting} {text rest : List Char} {serial : Nat} {σ σ' : Scope} {p p' : Preprocessor}

/-- The state behind a token that was read from the source. -/
def moved (p : Preprocessor) (t : Token) (stack : List Input) : Preprocessor :=
  { p with level := 0, token := t, stack }

/-- The state behind a token of the only input. -/
def movedIn (p : Preprocessor) (input : Input) : Preprocessor :=
  moved p input.next
    [{ input with next := (Token.lex lexOptions input.cursor).1,
                  cursor := (Token.lex lexOptions input.cursor).2 }]

theorem advanced_eq_movedIn {input : Input} (hlevel : p.nextLevel = 0)
    (hstack : p.stack.head? = some input) :
    advanced p input = movedIn p input := by
  obtain ⟨rest, hrest⟩ := List.head?_eq_some_iff.mp hstack
  simp only [advanced, movedIn, moved, hlevel, hrest, List.take_succ_cons, List.take_zero,
    List.set_cons_zero]

theorem consume_of_source {input : Input} (hlevel : p.nextLevel = 0)
    (hstack : p.stack.head? = some input) (hname : input.name = p.reached.source)
    (hclosed : input.next.kind = .stringLiteral → isClosed input.next.raw = true) :
    consume p = popFinished 0 (movedIn p input) := by
  have hget : p.stack[p.nextLevel]? = some input := by
    rw [hlevel, ← List.head?_eq_getElem?, hstack]
  rw [consume_of_some hget, entered_eq fun _ => hname, advanced_eq_movedIn hlevel hstack, hlevel,
    noted, if_neg]
  simpa using hclosed

theorem movedIn_nextKind {input : Input} (hlevel : p.nextLevel = 0) :
    (movedIn p input).nextKind = (Token.lex lexOptions input.cursor).1.kind := by
  simp [nextKind, movedIn, moved, hlevel]

/-- Reading a token of the source, when it is not the last one. -/
theorem consume_of_next {input : Input} (hlevel : p.nextLevel = 0)
    (hstack : p.stack.head? = some input) (hname : input.name = p.reached.source)
    (hclosed : input.next.kind = .stringLiteral → isClosed input.next.raw = true)
    (hnext : (Token.lex lexOptions input.cursor).1.kind ≠ .eof) :
    consume p = .ok (true, movedIn p input) := by
  rw [consume_of_source hlevel hstack hname hclosed]
  exact popFinished_zero_of_next (by rwa [movedIn_nextKind hlevel])

/-- Reading the newline of the last line ends the source. -/
theorem consume_of_last {input : Input} (hlevel : p.nextLevel = 0)
    (hstack : p.stack.head? = some input) (hname : input.name = p.reached.source)
    (hnewline : input.next.kind = .endOfLine) (hrest : input.cursor.rest = [])
    (hargument : input.isArgument = false) (hgroups : p.groups = []) :
    consume p = .ok (false, moved p input.next []) := by
  rw [consume_of_source hlevel hstack hname (by simp [hnewline])]
  have heof : (movedIn p input).nextKind = .eof := by
    rw [movedIn_nextKind hlevel, Token.lex, Token.lexFrom_nil _ _ hrest]
    rfl
  have hclose : closeGroups 0 (movedIn p input) = .ok ((), movedIn p input) :=
    closeGroups_eq fun g hg => by
      rw [show (movedIn p input).groups = [] from hgroups] at hg
      cases hg
  unfold popFinished
  refine bind_eq_ok.mpr ⟨true, _,
    isFinished_eq_ok.mpr (.ends heof hclose rfl (by simp [hargument])), ?_⟩
  exact bind_eq_ok.mpr ⟨(), _, modify_eq_ok.mpr rfl, pure_eq_ok.mpr ⟨rfl, rfl⟩⟩

/-- Whether the newline of a line is read next, given what is left of the source behind it. -/
structure AtNewline (e : Setting) (text : List Char) (serial : Nat) (σ : Scope) (rest : List Char)
    (t : Token) (p : Preprocessor) : Prop where
  setting : p.setting = e
  macros : p.macros = σ.macros
  column : σ.location.column = 1
  success : p.success = true
  overflow : p.overflow = false
  pushed : serial < p.pushed
  level_eq : ∀ g ∈ p.groups, g.level = 0
  nextLevel : p.nextLevel = 0
  suffix : rest <:+ text
  newline : t.kind = .endOfLine
  stack : p.stack.head?
    = some { e.input text serial (place text σ rest) with next := t, cursor := place text σ rest }
  begins : rest ≠ [] → Begins σ rest
  closed : rest = [] → p.groups = []

theorem AtNewline.nextKind {t : Token} (h : AtNewline e text serial σ rest t p) :
    p.nextKind = .endOfLine := by
  rw [Preprocessor.nextKind, h.nextLevel, ← List.head?_eq_getElem?, h.stack]
  exact h.newline

/-- A line ends in front of the next one. -/
theorem AtNewline.consume {t : Token} (h : AtNewline e text serial σ rest t p) :
    ∃ stack, consume p = .ok (decide (rest ≠ []), moved p t stack)
      ∧ Ahead e text serial σ rest (moved p t stack) := by
  have hname : e.source = p.reached.source := congrArg Setting.source h.setting.symm
  refine ⟨if rest = [] then [] else [e.input text serial (place text σ rest)], ?_,
    h.setting, h.macros, h.column, h.success, h.overflow, h.pushed, h.level_eq, h.nextLevel,
    h.suffix, rfl, h.begins, h.closed⟩
  by_cases hrest : rest = []
  · subst hrest
    rw [consume_of_last h.nextLevel h.stack hname h.newline rfl rfl (h.closed rfl)]
    rfl
  · rw [consume_of_next h.nextLevel h.stack hname (by simp [h.newline]) (h.begins hrest _),
      if_neg hrest, decide_eq_true hrest]
    rfl

/-- What surrounds the line that starts in a state. -/
def around (e : Setting) (before line rest : List Char) (serial : Nat) (p : Preprocessor)
    (hserial : serial < p.pushed) (hlevel : ∀ g ∈ p.groups, g.level = 0) : Surroundings where
  setting := e
  before := before
  text := line ++ ['\n']
  after := rest
  serial := serial
  pushed := p.pushed - 1
  output := p.output
  line := p.reached.line
  column := p.reached.column
  diagnostics := p.diagnostics
  groups := p.groups
  usedMacros := p.usedMacros
  pragmas := p.pragmas
  included := p.included
  serial_le := Nat.le_sub_one_of_lt hserial
  level_eq := hlevel

/-- The state in which a line is all there is. -/
theorem state_sound {c : Surroundings} {line : List Char} (hwhole : IsWhole (line ++ ['\n']))
    (hsetting : c.setting = e) (htext : c.text = line ++ ['\n']) : Sound c (e.state σ line) := by
  obtain ⟨⟨n, hn, hrest, hoffset⟩, hstart, hstop, hnewline, hended⟩ :=
    Token.lexFrom_spans lexOptions (σ.location.column ≤ 1) (Setting.cursor σ line)
  have hplace : (Token.lex lexOptions (Setting.cursor σ line)).2.offset = n :=
    hoffset.trans (Nat.zero_add n)
  refine ⟨hsetting.symm, rfl, fun _ => rfl, Nat.one_pos, ?_, ?_, ?_⟩
  · intro input hinput _
    obtain rfl := List.mem_singleton.mp hinput
    rfl
  · intro b hb _
    obtain rfl := Option.some.inj hb
    refine ⟨htext.symm, hwhole, ?_, ?_, hstop, hnewline, hended, rfl, rfl, rfl, rfl⟩
    · show (Token.lex lexOptions (Setting.cursor σ line)).2.rest
        = (line ++ ['\n']).drop (Token.lex lexOptions _).2.offset
      rw [hplace]
      exact hrest
    · exact hplace.trans_le hn
  · intro b hb _ _
    exact Nat.zero_le _

/-- A line on its own, in its surroundings. -/
theorem bottom_input {c : Surroundings} {line : List Char} (h : Opens σ line)
    (htext : c.text = line ++ ['\n']) :
    c.bottom (e.input (line ++ ['\n']) 0 (Setting.cursor σ line)) =
      e.input (c.before ++ c.text ++ c.after) c.serial
        (place (c.before ++ c.text ++ c.after) σ (line ++ '\n' :: c.after)) := by
  have hplace : (Setting.cursor σ line).within c.before.length c.after =
      place (c.before ++ c.text ++ c.after) σ (line ++ '\n' :: c.after) := by
    have hlength : (c.before ++ c.text ++ c.after).length - (line ++ '\n' :: c.after).length
        = c.before.length := by
      simp only [htext, List.length_append, List.length_cons, List.length_nil]
      omega
    rw [place, hlength]
    simp [Setting.cursor, Cursor.within]
  have hlex := Token.lexFrom_within c.before.length c.after lexOptions (σ.location.column ≤ 1)
    (Setting.cursor σ line) rfl h.whole h.next
  rw [hplace] at hlex
  have hinput :
      Token.lex lexOptions (place (c.before ++ c.text ++ c.after) σ (line ++ '\n' :: c.after))
        = _ := hlex
  simp only [Setting.input, hinput, bottom, number, if_true]
  rw [htext]
  rfl

/-- Whether the rest of a line is blank, and nothing else was read. -/
structure Leaving (fuel : Nat) (σ' : Scope) (c : Surroundings) (q : Preprocessor) : Prop where
  sound : Sound c q
  ends : ∃ q', skipSpaces fuel q = .ok ((), q')
    ∧ lineEnd? q' = some σ'.location ∧ q'.macros = σ'.macros

/-- Whether a computation reads the rest of a line. -/
structure Reading (fuel : Nat) (run : PreM α) (a : α) (σ' : Scope) (c : Surroundings)
    (q : Preprocessor) : Prop where
  sound : Sound c q
  ends : ∃ q₁ q₂, run q = .ok (a, q₁) ∧ skipSpaces fuel q₁ = .ok ((), q₂)
    ∧ lineEnd? q₂ = some σ'.location ∧ q₂.macros = σ'.macros

variable {fuel : Nat} {c : Surroundings} {q q' : Preprocessor}

instance skipSpaces_local : Local c (skipSpaces fuel) (skipSpaces fuel) := by
  unfold skipSpaces
  infer_instance

/-- What is known of a line that was read to its end. -/
theorem lineEnd?_eq_some {location : Location} (h : lineEnd? q = some location) :
    q.success = true ∧ q.nextLevel = 0
      ∧ ∃ b, q.stack.head? = some b ∧ b.name ≠ "" ∧ b.next.kind = .endOfLine ∧
      b.cursor.rest = [] ∧ b.cursor.location = location := by
  obtain ⟨b, hb, h⟩ := Option.bind_eq_some_iff.mp h
  split at h
  · obtain ⟨hsuccess, hlevel, hname, hnewline, hrest⟩ := ‹_ ∧ _›
    exact ⟨hsuccess, hlevel, b, hb, hname, hnewline, hrest, Option.some.inj h⟩
  · cases h

theorem onLine_of_lineEnd {location : Location} (h : lineEnd? q = some location) : OnLine q := by
  obtain ⟨hsuccess, -, b, hb, hname, hnewline, -⟩ := lineEnd?_eq_some h
  exact ⟨hsuccess, b, hb, hname, .inl hnewline⟩

theorem Leaving.onLine (h : Leaving fuel σ' c q) : OnLine q := by
  obtain ⟨q', hskip, hend, -⟩ := h.ends
  exact (skipSpaces_local (c := c)).onLine hskip (onLine_of_lineEnd hend)

/-- What reads a line alone reads it in its surroundings. -/
theorem Reading.run {run : PreM α} {a : α} [hrun : Local c run run]
    (h : Reading fuel run a σ' c q) (i : Location) :
    ∃ j q₁, run q = .ok (a, q₁) ∧ run (c.embed i q) = .ok (a, c.embed j q₁)
      ∧ Leaving fuel σ' c q₁ := by
  obtain ⟨q₁, q₂, hread, hskip, hend, hmacros⟩ := h.ends
  have hend₁ := (skipSpaces_local (c := c)).onLine hskip (onLine_of_lineEnd hend)
  obtain ⟨hq₁, hembed⟩ := hrun.embed hread h.sound hend₁
  obtain ⟨j, hj⟩ := hembed i
  exact ⟨j, q₁, hread, hj, hq₁, q₂, hskip, hend, hmacros⟩

/-- At the end of a line alone the newline is next in the surroundings. -/
theorem atNewline_of_lineEnd {j : Location} (hq : Sound c q) (hend : lineEnd? q = some σ'.location)
    (hmacros : q.macros = σ'.macros) (hbegins : c.after ≠ [] → Begins σ' c.after)
    (hclosed : c.after = [] → c.groups = []) :
    ∃ t, AtNewline c.setting (c.before ++ c.text ++ c.after) c.serial σ' c.after t
      (c.embed j q) := by
  obtain ⟨hsuccess, hlevel, b, hb, hname, hnewline, hrest, hlocation⟩ := lineEnd?_eq_some hend
  have hplaced := hq.placed b hb hname
  have hsource : b.name = c.setting.source := by
    rw [hq.named b (List.mem_of_head? hb) hname, ← hq.setting]
    rfl
  -- The line ends where its surroundings go on, so that the cursor of the line is the place in
  -- front of what comes behind it.
  have hoffset : b.cursor.offset = c.text.length := by
    have hdrop := hplaced.rest
    have hle := hplaced.offset
    rw [hrest, hplaced.text] at hdrop
    rw [hplaced.text] at hle
    exact Nat.le_antisymm hle (List.drop_eq_nil_iff.mp hdrop.symm)
  have hbottom : c.bottom b =
      { c.setting.input (c.before ++ c.text ++ c.after) c.serial
        (place (c.before ++ c.text ++ c.after) σ' c.after) with
        next := b.next.shift c.before.length
        cursor := place (c.before ++ c.text ++ c.after) σ' c.after } := by
    have hlength : (c.before ++ c.text ++ c.after).length - c.after.length
        = c.text.length + c.before.length := by
      simp only [List.length_append]
      omega
    simp only [bottom, Setting.input, hsource, hplaced.text, hplaced.hidden, hplaced.isArgument,
      hplaced.endReported, hplaced.serial, number, if_true, Cursor.within, hrest, hoffset,
      hlocation, List.nil_append, place, hlength]
  refine ⟨b.next.shift c.before.length, hq.setting, hmacros, ?_, hsuccess, hq.overflow hsuccess,
    ?_, c.level_eq, hlevel, List.suffix_append _ _, hnewline, ?_, hbegins, hclosed⟩
  · rw [← hlocation]
    exact (hplaced.newline hnewline).2
  · have := c.serial_le
    have := hq.pushed
    rw [embed_pushed]
    omega
  · rw [← hbottom, embed_stack]
    obtain ⟨above, habove⟩ := List.head?_eq_some_iff.mp hb
    rw [habove]
    rfl

theorem accept_eq (kind : Token.Kind) : accept fuel kind = (do
    skipSpaces fuel
    if ← peek kind then
      let _ ← consume
      return true
    return false) := rfl

/-- Behind a directive the next line starts. -/
theorem Leaving.nextLine (h : Leaving fuel σ' c q)
    (hbegins : c.after ≠ [] → Begins σ' c.after)
    (hclosed : c.after = [] → c.groups = []) (j : Location) :
    ∃ p', endDirective fuel (c.embed j q) = .ok ((), p') ∧
      Ahead c.setting (c.before ++ c.text ++ c.after) c.serial σ' c.after p' ∧
      p'.groups = c.groups ∧ p'.output = c.output ∧ p'.reached.line = c.line := by
  obtain ⟨q', hskip, hend, hmacros⟩ := h.ends
  obtain ⟨hq', hembed⟩ :=
    (skipSpaces_local (c := c)).embed hskip h.sound (onLine_of_lineEnd hend)
  obtain ⟨k, hk⟩ := hembed j
  obtain ⟨t, hnewline⟩ := atNewline_of_lineEnd (j := k) hq' hend hmacros hbegins hclosed
  obtain ⟨stack, hconsume, hahead⟩ := hnewline.consume
  refine ⟨_, ?_, hahead, rfl, rfl, rfl⟩
  have hpeek : peek .endOfLine (c.embed k q') = .ok (true, c.embed k q') :=
    bind_eq_ok.mpr ⟨_, _, get_eq_ok.mpr ⟨rfl, rfl⟩,
      pure_eq_ok.mpr ⟨decide_eq_true hnewline.nextKind, rfl⟩⟩
  have haccept :
      accept fuel .endOfLine (c.embed j q) = .ok (true, moved (c.embed k q') t stack) := by
    rw [accept_eq]
    refine bind_eq_ok.mpr ⟨(), _, hk, bind_eq_ok.mpr ⟨true, _, hpeek, ?_⟩⟩
    exact bind_eq_ok.mpr ⟨_, _, hconsume, pure_eq_ok.mpr ⟨rfl, rfl⟩⟩
  have hexpect : expect fuel .endOfLine (c.embed j q) = .ok (true, moved (c.embed k q') t stack) :=
    bind_eq_ok.mpr ⟨true, _, haccept, pure_eq_ok.mpr ⟨rfl, rfl⟩⟩
  exact bind_eq_ok.mpr ⟨true, _, hexpect, pure_eq_ok.mpr ⟨rfl, rfl⟩⟩

/-- Whether what is done for a directive stays on the directive's line. -/
structure IsReader (f : Token.Kind → Option (PreM α)) : Prop where
  readsLine : ∀ ⦃kind run⦄, f kind = some run → ∀ c, Local c run run
  directive : f .stringLiteral = none

instance isDefined_local {expected : Bool} :
    Local c (isDefined fuel expected) (isDefined fuel expected) := by
  unfold isDefined
  refine .andThen fun _ => .get fun q i => ?_
  rw [embed_findMacro?, embed_token_text]
  infer_instance

theorem isReader_opening : IsReader (opening? fuel) where
  readsLine := by
    intro kind run h c
    unfold opening? at h
    split at h <;> cases h <;> infer_instance
  directive := rfl

theorem isReader_change : IsReader (change? fuel) where
  readsLine := by
    intro kind run h c
    unfold change? at h
    split at h <;> cases h <;> infer_instance
  directive := rfl

theorem isReader_only {kind : Token.Kind} {run : PreM α} [hrun : ∀ c, Local c run run]
    (hkind : kind ≠ .stringLiteral) :
    IsReader (only kind run) where
  readsLine := by
    intro k run' h c
    unfold only at h
    split at h <;> cases h
    exact hrun c
  directive := if_neg hkind.symm

variable {f : Token.Kind → Option (PreM α)} {line : List Char} {a : α}

theorem directive_eq_some (h : e.directive fuel f σ line = some (a, σ')) :
    IsWhole (line ++ ['\n']) ∧ ∃ run q, f (e.state σ line).nextKind = some run ∧
      lineValue fuel run (e.state σ line) = .ok (a, q)
        ∧ lineEnd? q = some σ'.location ∧ q.macros = σ'.macros := by
  unfold Setting.directive at h
  split at h
  · cases h
  · obtain ⟨run, hrun, h⟩ := Option.bind_eq_some_iff.mp h
    obtain ⟨r, hr, h⟩ := Option.bind_eq_some_iff.mp h
    obtain ⟨location, hend, h⟩ := Option.map_eq_some_iff.mp h
    cases h
    refine ⟨isWhole_of_notContinued ‹_›, run, r.2, hrun, ?_, hend, rfl⟩
    cases hvalue : lineValue fuel run (e.state σ line) with
    | error => rw [hvalue] at hr; cases hr
    | ok => rw [hvalue] at hr; cases hr; rfl

/-- The surroundings in which a line is all there is. -/
def alone (e : Setting) (text : List Char) : Surroundings where
  setting := e
  before := []
  text := text
  after := []
  serial := 0
  pushed := 0
  output := ""
  line := 0
  column := 0
  diagnostics := []
  groups := []
  usedMacros := []
  pragmas := []
  included := []
  serial_le := le_refl 0
  level_eq := List.forall_mem_nil _

theorem lineValue_eq_ok {run : PreM α} (h : lineValue fuel run p = .ok (a, p')) :
    ∃ b q q₁, consume p = .ok (b, q) ∧ run q = .ok (a, q₁)
      ∧ skipSpaces fuel q₁ = .ok ((), p') := by
  obtain ⟨b, q, hconsume, h⟩ := bind_eq_ok.mp h
  obtain ⟨a', q₁, hrun, h⟩ := bind_eq_ok.mp h
  obtain ⟨_, _, hskip, h⟩ := bind_eq_ok.mp h
  obtain ⟨rfl, rfl⟩ := pure_eq_ok.mp h
  exact ⟨b, q, q₁, hconsume, hrun, hskip⟩

/-- A directive is read in the same way in all surroundings of its line. -/
theorem lineValue_local (fuel : Nat) (hf : IsReader f) {kind : Token.Kind} {run : PreM α}
    (hrun : f kind = some run)
    (c : Surroundings) : Local c (lineValue fuel run) (lineValue fuel run) := by
  have hread := hf.readsLine hrun c
  unfold lineValue
  infer_instance

theorem directive_opens (hf : IsReader f) (h : e.directive fuel f σ line = some (a, σ')) :
    Opens σ line := by
  obtain ⟨hwhole, run, q, hrun, hvalue, hend, -⟩ := directive_eq_some h
  have hline := lineValue_local fuel hf hrun (alone e (line ++ ['\n']))
  obtain ⟨-, b, hb, -, hnext⟩ := hline.onLine hvalue (onLine_of_lineEnd hend)
  obtain rfl := Option.some.inj hb
  exact ⟨hwhole, hnext⟩

/-- Whether surroundings are those of the line that starts in a state. -/
structure IsAround (e : Setting) (text rest : List Char) (serial : Nat) (p : Preprocessor)
    (c : Surroundings) : Prop where
  setting : c.setting = e
  text_eq : c.before ++ c.text ++ c.after = text
  after : c.after = rest
  serial_eq : c.serial = serial
  groups : c.groups = p.groups
  output : c.output = p.output
  line : c.line = p.reached.line

/-- The first token of a directive is read, and the rest of its line is read as if it were alone. -/
theorem Ahead.start (hp : Ahead e text serial σ (line ++ '\n' :: rest) p) (hf : IsReader f)
    (h : e.directive fuel f σ line = some (a, σ')) :
    ∃ run c q p₀, f q.token.kind = some run ∧ q.level = 0 ∧ consume p = .ok (true, p₀) ∧
      { p₀ with expansions := 0 } = c.embed p.invocation q
        ∧ Reading fuel run a σ' c q ∧ IsAround e text rest serial p c := by
  obtain ⟨hwhole, run, q₂, hrun, hvalue, hend, hmacros⟩ := directive_eq_some h
  have hopens := directive_opens hf h
  obtain ⟨b, q, q₁, hconsume, hread, hskip⟩ := lineValue_eq_ok hvalue
  obtain ⟨before, hbefore⟩ := hp.suffix
  let c := around e before line rest serial p hp.pushed hp.level_eq
  have hlocal := hf.readsLine hrun c
  have hend₁ := (skipSpaces_local (c := c)).onLine hskip (onLine_of_lineEnd hend)
  have hend₀ := hlocal.onLine hread hend₁
  have hsound := state_sound (e := e) (σ := σ) (c := c) hwhole rfl rfl
  have hsound₀ := ((consume_local (c := c)).embed hconsume hsound hend₀).1
  -- Alone, the first token is read and the next one is on the line.
  have hkind : (e.input (line ++ ['\n']) 0 (Setting.cursor σ line)).next.kind
      ≠ .stringLiteral := by
    intro hkind
    have hnone := hf.directive
    rw [← hkind] at hnone
    rw [show f (e.state σ line).nextKind = none from hnone] at hrun
    cases hrun
  rw [consume_of_source rfl rfl rfl fun h => absurd h hkind] at hconsume
  have hmoved := advanced_eq_movedIn (p := e.state σ line) rfl rfl
  obtain ⟨hnext, rfl, rfl⟩ :=
    popFinished_zero_eq hconsume (hmoved ▸ advanced_sound rfl hsound) hend₀
  -- In the surroundings the same token is read.
  have hembed := advanced_embed (i := p.invocation) rfl hsound (hmoved ▸ hend₀)
  rw [hmoved, advanced_eq_movedIn rfl rfl] at hembed
  have hinput : c.bottom (e.input (line ++ ['\n']) 0 (Setting.cursor σ line)) =
      e.input text serial (place text σ (line ++ '\n' :: rest)) := by
    have htext : c.before ++ c.text ++ c.after = text := by
      rw [← hbefore, List.append_assoc]
      exact congrArg (before ++ ·) (List.append_assoc line ['\n'] rest)
    rw [bottom_input hopens rfl, htext]
    rfl
  have hstack : p.stack = [c.bottom (e.input (line ++ ['\n']) 0 (Setting.cursor σ line))] := by
    rw [hp.stack, if_neg (List.append_ne_nil_of_right_ne_nil _ (List.cons_ne_nil _ _)), hinput]
  have hsame :
      ({ movedIn p (c.bottom (e.input (line ++ ['\n']) 0 (Setting.cursor σ line))) with
        expansions := 0 } : Preprocessor) =
      c.embed p.invocation
        (movedIn (e.state σ line) (e.input (line ++ ['\n']) 0 (Setting.cursor σ line))) := by
    rw [← hembed]
    have hpushed : p.pushed = 1 + (p.pushed - 1) := by
      have := hp.pushed
      omega
    obtain ⟨hfiles, hpaths, hsource⟩ : p.files = e.files
        ∧ p.includePaths = e.includePaths ∧ p.reached.source = e.source := by
      rw [← hp.setting]
      exact ⟨rfl, rfl, rfl⟩
    have hreached : p.reached = { source := e.source, line := c.line, column := c.column } := by
      rw [← hsource]
      rfl
    simp only [movedIn, moved, embed, Setting.state, Preprocessor.mk.injEq, if_true, true_and]
    exact ⟨hfiles, hpaths, hp.macros, rfl, (List.append_nil _).symm, hp.success, hp.nextLevel,
      hreached, hp.overflow, rfl, rfl, rfl, rfl, hpushed⟩
  have hnextKind :
      (Token.lex lexOptions
        (c.bottom (e.input (line ++ ['\n']) 0 (Setting.cursor σ line))).cursor).1.kind
        ≠ .eof := by
    rw [← movedIn_nextKind (p := p) hp.nextLevel]
    have hkind := congrArg nextKind hsame
    rw [embed_nextKind] at hkind
    exact hkind.trans_ne hnext
  refine ⟨run, c, _, _, hrun, rfl,
    consume_of_next hp.nextLevel (congrArg List.head? hstack) ?_ ?_ hnextKind, hsame,
    ⟨hsound₀, q₁, q₂, hread, hskip, hend, hmacros⟩, ?_⟩
  · rw [hinput]
    exact congrArg Setting.source hp.setting.symm
  · exact fun h => absurd h hkind
  · refine ⟨rfl, ?_, rfl, rfl, rfl, rfl, rfl⟩
    rw [← hbefore, List.append_assoc]
    exact congrArg (before ++ ·) (List.append_assoc line ['\n'] rest)

end ShaderEffect.Preprocessor
