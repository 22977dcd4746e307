import ShaderEffect.Proofs.Preprocessing.Locality

namespace ShaderEffect.Preprocessor

open Surroundings

variable {c : Surroundings} {α : Type}

theorem not_onLine_of_error {location : Location} {message : String} {q q' : Preprocessor}
    {u : Unit} (h : error location message q = .ok (u, q')) : ¬OnLine q' := by
  obtain rfl := modify_eq_ok.mp h
  intro hend
  have hsuccess := hend.success
  simp at hsuccess

/-- Behind an error the line does not matter any more. -/
instance error_local {location location' : Location} {message message' : String} :
    Local c (error location message) (error location' message') :=
  .of_failed fun _ _ _ h => not_onLine_of_error h

/-- An error may be reported at a place that the surroundings move. -/
instance get_error_local {location : Preprocessor → Location} {message : Preprocessor → String}
    {f g : Unit → PreM α} [hf : ∀ u, Local c (f u) (g u)] :
    Local c (get >>= fun p => error (location p) (message p) >>= f)
      (get >>= fun p => error (location p) (message p) >>= g) :=
  .get fun _ _ => inferInstance

instance warning_local {location : Location} {message : String} :
    Local c (warning location message) (warning location message) := by
  refine .modify (fun q hend => ?_)
    (fun q hq _ => ⟨hq.setting, hq.groups, fun h => hq.overflow (by simpa using h), hq.pushed,
      hq.named, hq.placed, hq.token⟩) fun q i _ _ => ⟨i, ?_⟩
  · exact ⟨by simpa using hend.success, hend.bottom⟩
  · simp [embed, List.append_assoc]

instance peek_local {kind : Token.Kind} : Local c (peek kind) (peek kind) := by
  refine .get fun q i => ?_
  rw [embed_nextKind]
  infer_instance

instance atLineEnd_local : Local c atLineEnd atLineEnd := by
  refine .get fun q i => ?_
  rw [embed_nextKind]
  infer_instance

/-- Groups that were opened below a level stay open. -/
theorem closeGroups_eq {level : Nat} {q : Preprocessor} (h : ∀ g ∈ q.groups, g.level < level) :
    closeGroups level q = .ok ((), q) := by
  have htake : q.groups.takeWhile (·.level ≥ level) = [] := by
    cases hg : q.groups with
    | nil => rfl
    | cons g rest =>
      have := h g (by rw [hg]; exact List.mem_cons_self)
      simp only [List.takeWhile_cons]
      rw [if_neg]
      simpa using this
  have hdrop : q.groups.dropWhile (·.level ≥ level) = q.groups := by
    cases hg : q.groups with
    | nil => rfl
    | cons g rest =>
      have := h g (by rw [hg]; exact List.mem_cons_self)
      simp only [List.dropWhile_cons]
      rw [if_neg]
      simpa using this
  unfold closeGroups
  refine bind_eq_ok.mpr ⟨q, q, get_eq_ok.mpr ⟨rfl, rfl⟩, bind_eq_ok.mpr ⟨(), q, ?_, ?_⟩⟩
  · rw [htake]
    rfl
  · refine modify_eq_ok.mpr ?_
    simp only [hdrop]

theorem forM_error_changes {l : List Group} {message : String} {q q' : Preprocessor} {u : Unit}
    (h : (l.forM fun g => error g.directive.location message) q = .ok (u, q')) :
    ∃ diagnostics success, q' = { q with diagnostics, success }
      ∧ (success = true → q.success = true) := by
  induction l generalizing q with
  | nil =>
    obtain ⟨-, rfl⟩ := pure_eq_ok.mp h
    exact ⟨q.diagnostics, q.success, rfl, id⟩
  | cons g rest ih =>
    obtain ⟨_, q₁, h₁, h₂⟩ := bind_eq_ok.mp h
    obtain rfl := modify_eq_ok.mp h₁
    obtain ⟨diagnostics, success, rfl, hsuccess⟩ := ih h₂
    exact ⟨diagnostics, success, rfl, fun htrue => (Bool.and_eq_true_iff.mp (hsuccess htrue)).1⟩

/-- Closing groups reports errors at most. -/
theorem closeGroups_changes {level : Nat} {q q' : Preprocessor} {u : Unit}
    (h : closeGroups level q = .ok (u, q')) :
    ∃ diagnostics success groups, q' = { q with diagnostics, success, groups }
      ∧ (success = true → q.success = true) := by
  obtain ⟨_, _, hget, h⟩ := bind_eq_ok.mp h
  obtain ⟨rfl, rfl⟩ := get_eq_ok.mp hget
  obtain ⟨_, q₁, h₁, h₂⟩ := bind_eq_ok.mp h
  obtain rfl := modify_eq_ok.mp h₂
  obtain ⟨diagnostics, success, rfl, hsuccess⟩ := forM_error_changes h₁
  exact ⟨diagnostics, success, _, rfl, hsuccess⟩

theorem closeGroups_onLine {level : Nat} {q q' : Preprocessor} {u : Unit}
    (h : closeGroups level q = .ok (u, q')) (hend : OnLine q') : OnLine q := by
  obtain ⟨diagnostics, success, groups, rfl, hsuccess⟩ := closeGroups_changes h
  exact ⟨hsuccess hend.success, hend.bottom⟩

instance closeGroups_local {level : Nat} :
    Local c (closeGroups (level + 1)) (closeGroups (level + 1)) where
  onLine _ _ _ h hend := closeGroups_onLine h hend
  embed q _ q' h hq hend := by
    have hempty : ∀ g ∈ q.groups, g.level < level + 1 := by simp [hq.groups]
    rw [closeGroups_eq hempty] at h
    cases h
    refine ⟨hq, fun i => ⟨i, closeGroups_eq fun g hg => ?_⟩⟩
    rw [c.level_eq g hg]
    exact Nat.succ_pos level

/-- The state with one input replaced. -/
def withInput (q : Preprocessor) (level : Nat) (input : Input) : Preprocessor :=
  { q with stack := q.stack.set level input }

/-- What the question whether a level is finished comes to, and what it changes. -/
inductive Finish (level : Nat) (q : Preprocessor) : Bool → Preprocessor → Prop where
  | goesOn (h : q.nextKind ≠ .eof) : Finish level q false q
  | reports {q₁ : Preprocessor} {input : Input} (h : q.nextKind = .eof)
      (hclose : closeGroups level q = .ok ((), q₁))
      (hget : q₁.stack[level]? = some input)
      (harg : (input.isArgument && !input.endReported) = true) :
      Finish level q false (withInput q₁ level { input with endReported := true })
  | ends {q₁ : Preprocessor} {input : Input} (h : q.nextKind = .eof)
      (hclose : closeGroups level q = .ok ((), q₁)) (hget : q₁.stack[level]? = some input)
      (harg : (input.isArgument && !input.endReported) = false) : Finish level q true q₁

theorem isFinished_eq_ok {level : Nat} {q q' : Preprocessor} {b : Bool} :
    isFinished level q = .ok (b, q') ↔ Finish level q b q' := by
  unfold isFinished peek
  -- The three ways to go on are the branches of the computation, taken apart in one direction
  -- and put together in the other.
  constructor
  · intro h
    obtain ⟨_, _, hpeek, h⟩ := bind_eq_ok.mp h
    obtain ⟨_, _, hget, hpeek⟩ := bind_eq_ok.mp hpeek
    obtain ⟨rfl, rfl⟩ := get_eq_ok.mp hget
    obtain ⟨rfl, rfl⟩ := pure_eq_ok.mp hpeek
    by_cases heof : q.nextKind = .eof
    · simp only [heof, decide_true, Bool.not_true, Bool.false_eq_true, if_false] at h
      obtain ⟨_, q₁, hclose, h⟩ := bind_eq_ok.mp h
      obtain ⟨_, _, hget, h⟩ := bind_eq_ok.mp h
      obtain ⟨rfl, rfl⟩ := get_eq_ok.mp hget
      cases hinput : q₁.stack[level]? with
      | none =>
        rw [hinput] at h
        exact absurd h throw_eq_ok.mp
      | some input =>
        rw [hinput] at h
        simp only at h
        split at h
        · obtain ⟨_, _, hset, h⟩ := bind_eq_ok.mp h
          obtain rfl := modify_eq_ok.mp hset
          obtain ⟨rfl, rfl⟩ := pure_eq_ok.mp h
          exact .reports heof hclose hinput ‹_›
        · obtain ⟨rfl, rfl⟩ := pure_eq_ok.mp h
          exact .ends heof hclose hinput (Bool.eq_false_of_not_eq_true ‹_›)
    · simp only [heof, decide_false, Bool.not_false, if_true] at h
      obtain ⟨rfl, rfl⟩ := pure_eq_ok.mp h
      exact .goesOn heof
  · intro h
    refine bind_eq_ok.mpr ⟨_, q,
      bind_eq_ok.mpr ⟨q, q, get_eq_ok.mpr ⟨rfl, rfl⟩, pure_eq_ok.mpr ⟨rfl, rfl⟩⟩, ?_⟩
    cases h with
    | goesOn heof =>
      simp only [heof, decide_false, Bool.not_false, if_true]
      exact pure_eq_ok.mpr ⟨rfl, rfl⟩
    | reports heof hclose hget harg =>
      simp only [heof, decide_true, Bool.not_true, Bool.false_eq_true, if_false]
      refine bind_eq_ok.mpr ⟨(), _, hclose,
        bind_eq_ok.mpr ⟨_, _, get_eq_ok.mpr ⟨rfl, rfl⟩, ?_⟩⟩
      simp only [hget, harg, if_true]
      exact bind_eq_ok.mpr ⟨(), _, modify_eq_ok.mpr rfl, pure_eq_ok.mpr ⟨rfl, rfl⟩⟩
    | ends heof hclose hget harg =>
      simp only [heof, decide_true, Bool.not_true, Bool.false_eq_true, if_false]
      refine bind_eq_ok.mpr ⟨(), _, hclose,
        bind_eq_ok.mpr ⟨_, _, get_eq_ok.mpr ⟨rfl, rfl⟩, ?_⟩⟩
      simp only [hget, harg, Bool.false_eq_true, if_false]
      exact pure_eq_ok.mpr ⟨rfl, rfl⟩

theorem head?_set_of_same {stack : List Input} {level : Nat} {input input' b : Input}
    (hget : stack[level]? = some input) (hb : (stack.set level input').head? = some b) :
    (0 < level ∧ stack.head? = some b)
      ∨ (level = 0 ∧ stack.head? = some input ∧ b = input') := by
  cases stack with
  | nil => cases hb
  | cons first rest =>
    cases level with
    | zero =>
      cases hget
      cases hb
      exact .inr ⟨rfl, rfl, rfl⟩
    | succ level => exact .inl ⟨Nat.succ_pos _, hb⟩

theorem onLine_of_withInput {q : Preprocessor} {level : Nat} {input input' : Input}
    (h : OnLine (withInput q level input')) (hget : q.stack[level]? = some input)
    (hname : input'.name = input.name) (hnext : input'.next = input.next)
    (hcursor : input'.cursor = input.cursor) :
    OnLine q := by
  obtain ⟨hsuccess, b, hb, hline⟩ := h
  refine ⟨hsuccess, ?_⟩
  obtain ⟨-, hhead⟩ | ⟨-, hhead, rfl⟩ := head?_set_of_same hget hb
  · exact ⟨b, hhead, hline⟩
  · exact ⟨input, hhead, by rwa [← hname, ← hnext, ← hcursor]⟩

theorem withInput_sound {q : Preprocessor} {level : Nat} {input input' : Input} (hq : Sound c q)
    (hget : q.stack[level + 1]? = some input) (hname : input'.name = input.name) :
    Sound c (withInput q (level + 1) input') := by
  have hhead {b : Input} (hb : (q.stack.set (level + 1) input').head? = some b) :
      q.stack.head? = some b := by
    obtain ⟨-, hb⟩ | ⟨hzero, -⟩ := head?_set_of_same hget hb
    · exact hb
    · exact absurd hzero (Nat.succ_ne_zero level)
  refine ⟨hq.setting, hq.groups, hq.overflow, hq.pushed, fun entry hentry => ?_,
    fun b hb => hq.placed b (hhead hb), fun b hb => hq.token b (hhead hb)⟩
  obtain hmem | rfl := List.mem_or_eq_of_mem_set hentry
  · exact hq.named entry hmem
  · rw [hname]
    exact hq.named input (List.mem_of_getElem? hget)

theorem withInput_embed {q : Preprocessor} {level : Nat} {input : Input} {i : Location} :
    withInput (c.embed i q) (level + 1) (c.above input)
      = c.embed i (withInput q (level + 1) input) := by
  have hset := inputs_set (c := c) q.stack (level + 1) input
  simp only [Nat.add_one_ne_zero, if_false] at hset
  simp only [withInput, embed, hset]
  rfl

theorem Finish.onLine {level : Nat} {q q' : Preprocessor} {b : Bool} (h : Finish level q b q')
    (hend : OnLine q') :
    OnLine q := by
  cases h with
  | goesOn => exact hend
  | reports _ hclose hget =>
    exact closeGroups_onLine hclose (onLine_of_withInput hend hget rfl rfl rfl)
  | ends _ hclose => exact closeGroups_onLine hclose hend

instance isFinished_local {level : Nat} :
    Local c (isFinished (level + 1)) (isFinished (level + 1)) where
  onLine _ _ _ h hend := (isFinished_eq_ok.mp h).onLine hend
  embed q b q' h hq hend := by
    have habove {q : Preprocessor} {input : Input} {i : Location}
        (hget : q.stack[level + 1]? = some input) :
        (c.embed i q).stack[level + 1]? = some (c.above input) := by
      rw [embed_stack, inputs_getElem?, hget]
      rfl
    cases isFinished_eq_ok.mp h with
    | goesOn heof =>
      exact ⟨hq, fun i => ⟨i, isFinished_eq_ok.mpr (.goesOn (by rwa [embed_nextKind]))⟩⟩
    | @reports q₁ input heof hclose hget harg =>
      obtain ⟨hq₁, hembed⟩ :=
        (closeGroups_local (c := c)).embed hclose hq (onLine_of_withInput hend hget rfl rfl rfl)
      refine ⟨withInput_sound hq₁ hget rfl, fun i => ?_⟩
      obtain ⟨j, hj⟩ := hembed i
      refine ⟨j, isFinished_eq_ok.mpr ?_⟩
      rw [← withInput_embed]
      exact Finish.reports (embed_nextKind.trans heof) hj (habove hget) harg
    | @ends q₁ input heof hclose hget harg =>
      obtain ⟨hq₁, hembed⟩ := (closeGroups_local (c := c)).embed hclose hq hend
      refine ⟨hq₁, fun i => ?_⟩
      obtain ⟨j, hj⟩ := hembed i
      exact ⟨j, isFinished_eq_ok.mpr (.ends (embed_nextKind.trans heof) hj (habove hget) harg)⟩

/-- The bottom is finished behind the line only. -/
theorem popFinished_zero_onLine {q q' : Preprocessor} {b : Bool} (h : popFinished 0 q = .ok (b, q'))
    (hend : OnLine q') :
    Finish 0 q false q' ∧ b = true := by
  unfold popFinished at h
  obtain ⟨finished, q₁, hfinish, h⟩ := bind_eq_ok.mp h
  cases finished with
  | false =>
    obtain ⟨rfl, rfl⟩ := pure_eq_ok.mp h
    exact ⟨isFinished_eq_ok.mp hfinish, rfl⟩
  | true =>
    obtain ⟨_, _, hempty, h⟩ := bind_eq_ok.mp h
    obtain rfl := modify_eq_ok.mp hempty
    obtain ⟨-, rfl⟩ := pure_eq_ok.mp h
    exact absurd rfl hend.stack_ne_nil

/-- On the line nothing is finished: the bottom of the stack is no argument. -/
theorem popFinished_zero_eq {q q' : Preprocessor} {b : Bool} (h : popFinished 0 q = .ok (b, q'))
    (hq : Sound c q) (hend : OnLine q') : q.nextKind ≠ .eof ∧ b = true ∧ q' = q := by
  obtain ⟨hfinish, rfl⟩ := popFinished_zero_onLine h hend
  generalize hb : false = b at hfinish
  cases hfinish with
  | goesOn heof => exact ⟨heof, rfl, rfl⟩
  | ends => cases hb
  | @reports q₁ input heof hclose hget harg =>
    rw [closeGroups_eq (by simp [hq.groups])] at hclose
    cases hclose
    obtain ⟨-, b, hb, hname, -⟩ := hend
    obtain ⟨hlt, -⟩ | ⟨-, hhead, rfl⟩ := head?_set_of_same hget hb
    · exact absurd hlt (Nat.lt_irrefl 0)
    · rw [(hq.placed input hhead hname).isArgument] at harg
      cases harg

theorem popFinished_zero_of_next {q : Preprocessor} (h : q.nextKind ≠ .eof) :
    popFinished 0 q = .ok (true, q) := by
  unfold popFinished
  exact bind_eq_ok.mpr ⟨false, _, isFinished_eq_ok.mpr (.goesOn h),
    pure_eq_ok.mpr ⟨rfl, rfl⟩⟩

instance popFinished_local {level : Nat} : Local c (popFinished level) (popFinished level) := by
  induction level with
  | zero =>
    constructor
    · intro q b q' h hend
      exact (popFinished_zero_onLine h hend).1.onLine hend
    · intro q b q' h hq hend
      obtain ⟨heof, rfl, rfl⟩ := popFinished_zero_eq h hq hend
      exact ⟨hq, fun i => ⟨i, popFinished_zero_of_next (by rwa [embed_nextKind])⟩⟩
  | succ level ih =>
    have hmodify : Local c (modify fun p => { p with nextLevel := level } : PreM Unit)
        (modify fun p => { p with nextLevel := level }) :=
      .modify (fun q hend => ⟨hend.success, hend.bottom⟩)
        (fun q hq _ => ⟨hq.setting, hq.groups, hq.overflow, hq.pushed, hq.named, hq.placed,
          hq.token⟩) fun q i _ _ => ⟨i, rfl⟩
    unfold popFinished
    infer_instance

/-- The state in which the output has entered the file that is read. -/
def entered (q : Preprocessor) (input : Input) : Preprocessor :=
  if input.name ≠ "" && input.name ≠ q.reached.source then
    { q with
      output := q.output ++ lineDirective input.next.location.line (some input.name)
      reached := { source := input.name, line := input.next.location.line - 1 } }
  else q

/-- The state in which the next token was read from an input. -/
def advanced (q : Preprocessor) (input : Input) : Preprocessor :=
  { q with
    level := q.nextLevel
    token := input.next
    stack := (q.stack.take (q.nextLevel + 1)).set q.nextLevel
      { input with
        next := (Token.lex lexOptions input.cursor).1
        cursor := (Token.lex lexOptions input.cursor).2 } }

/-- What follows a token that was read. -/
def noted (level : Nat) (t : Token) : PreM Bool := do
  if t.kind = .stringLiteral && !isClosed t.raw then error t.location "unterminated string literal"
  popFinished level

theorem consume_of_nil {q : Preprocessor} (h : q.stack = []) :
    consume q = .ok (false, { q with level := q.nextLevel }) := by
  unfold consume
  simp [bind, StateT.bind, modify, modifyGet, MonadStateOf.modifyGet, StateT.modifyGet, Except.bind,
    h, pure, Except.pure, StateT.pure, get, getThe, MonadStateOf.get, StateT.get]

theorem consume_of_some {q : Preprocessor} {input : Input}
    (hget : q.stack[q.nextLevel]? = some input) :
    consume q = noted q.nextLevel input.next (advanced (entered q input) input) := by
  have hempty : q.stack.isEmpty = false := by
    cases hstack : q.stack with
    | nil => simp [hstack] at hget
    | cons => rfl
  have htake : (q.stack.take (q.nextLevel + 1))[q.nextLevel]? = some input := by
    rw [List.getElem?_take_of_lt (Nat.lt_succ_self _), hget]
  unfold consume noted
  simp only [bind, StateT.bind, modify, modifyGet, MonadStateOf.modifyGet, StateT.modifyGet,
    Except.bind, pure, Except.pure, get, getThe, MonadStateOf.get, StateT.get, hempty,
    Bool.false_eq_true, if_false, htake, enterSource, entered]
  by_cases hname : (decide (input.name ≠ "") && decide (input.name ≠ q.reached.source)) = true
  · rw [if_pos hname, if_pos hname]
    rfl
  · rw [if_neg hname, if_neg hname]
    rfl

theorem entered_eq {q : Preprocessor} {input : Input}
    (hname : input.name ≠ "" → input.name = q.reached.source) :
    entered q input = q := by
  unfold entered
  rw [if_neg]
  simpa using hname

theorem noted_local {level : Nat} {t t' : Token} (hkind : t'.kind = t.kind)
    (hraw : t'.raw = t.raw) :
    Local c (noted level t) (noted level t') := by
  unfold noted
  rw [hkind, hraw]
  infer_instance

/-- The bottom behind the next token: the line itself has moved on, or it is as it was. -/
theorem head?_advanced {q : Preprocessor} {input b : Input}
    (hget : q.stack[q.nextLevel]? = some input) (hb : (advanced q input).stack.head? = some b) :
    (0 < q.nextLevel ∧ q.stack.head? = some b) ∨
      (q.nextLevel = 0 ∧ q.stack.head? = some input ∧ b = { input with
        next := (Token.lex lexOptions input.cursor).1
        cursor := (Token.lex lexOptions input.cursor).2 }) := by
  have htake : (q.stack.take (q.nextLevel + 1))[q.nextLevel]? = some input := by
    rw [List.getElem?_take_of_lt (Nat.lt_succ_self _), hget]
  have hhead : (q.stack.take (q.nextLevel + 1)).head? = q.stack.head? := by
    cases q.stack <;> rfl
  rw [← hhead]
  exact head?_set_of_same htake hb

/-- Reading a token of the line needs more of the line. -/
theorem onLine_of_advanced {q : Preprocessor} {input : Input}
    (hget : q.stack[q.nextLevel]? = some input) (h : OnLine (advanced q input)) : OnLine q := by
  obtain ⟨hsuccess, b, hb, hname, hline⟩ := h
  refine ⟨hsuccess, ?_⟩
  obtain ⟨-, hhead⟩ | ⟨-, hhead, rfl⟩ := head?_advanced hget hb
  · exact ⟨b, hhead, hname, hline⟩
  · refine ⟨input, hhead, hname, .inr fun hnil => ?_⟩
    rw [Token.lex, Token.lexFrom_nil _ _ hnil] at hline
    simp [Token.Cursor.token, hnil] at hline

theorem Placed.whole_rest {text : List Char} {b : Input} (h : Placed text b)
    (hne : b.cursor.rest ≠ []) : Token.IsWhole b.cursor.rest :=
  h.whole.of_suffix (h.rest ▸ List.drop_suffix _ _) hne

theorem Placed.lex {text : List Char} {b : Input} (h : Placed text b) :
    Placed text { b with
      next := (Token.lex lexOptions b.cursor).1
      cursor := (Token.lex lexOptions b.cursor).2 } := by
  obtain ⟨⟨n, hn, hrest, hoffset⟩, hstart, hstop, hnewline, hended⟩ :=
    Token.lexFrom_spans lexOptions (b.cursor.location.column ≤ 1) b.cursor
  have hlength := h.offset
  rw [h.rest, List.length_drop] at hn
  refine ⟨h.text, h.whole, ?_, ?_, hstop, hnewline, hended, h.hidden, h.isArgument,
    h.endReported, h.serial⟩
  · simp only [Token.lex, hrest, h.rest, List.drop_drop, hoffset]
  · simp only [Token.lex, hoffset]
    omega

theorem advanced_sound {q : Preprocessor} {input : Input}
    (hget : q.stack[q.nextLevel]? = some input) (hq : Sound c q) :
    Sound c (advanced q input) := by
  constructor
  · exact hq.setting
  · exact hq.groups
  · exact hq.overflow
  · exact hq.pushed
  · intro entry hentry
    obtain hmem | rfl := List.mem_or_eq_of_mem_set hentry
    · exact hq.named entry (List.mem_of_mem_take hmem)
    · exact hq.named input (List.mem_of_getElem? hget)
  · intro b hb hname
    obtain ⟨-, hhead⟩ | ⟨-, hhead, rfl⟩ := head?_advanced hget hb
    · exact hq.placed b hhead hname
    · exact (hq.placed input hhead hname).lex
  · intro b hb hname hlevel
    obtain ⟨hpos, -⟩ | ⟨-, hhead, rfl⟩ := head?_advanced hget hb
    · exact absurd hlevel hpos.ne'
    · have hplaced := hq.placed input hhead hname
      exact hplaced.next.trans (Token.lexFrom_spans lexOptions _ input.cursor).start

theorem advanced_embed {q : Preprocessor} {input : Input} {i : Location}
    (hget : q.stack[q.nextLevel]? = some input)
    (hq : Sound c q) (hend : OnLine (advanced q input)) :
    advanced (c.embed i q) (if q.nextLevel = 0 then c.bottom input else c.above input)
      = c.embed i (advanced q input) := by
  have hset := inputs_set (c := c) (q.stack.take (q.nextLevel + 1)) q.nextLevel
    { input with
      next := (Token.lex lexOptions input.cursor).1
      cursor := (Token.lex lexOptions input.cursor).2 }
  by_cases hlevel : q.nextLevel = 0
  · obtain ⟨-, b, hb, hname, hline⟩ := hend
    obtain ⟨hpos, -⟩ | ⟨-, hhead, rfl⟩ := head?_advanced hget hb
    · exact absurd hlevel hpos.ne'
    have hne : input.cursor.rest ≠ [] := by
      intro hnil
      rw [Token.lex, Token.lexFrom_nil _ _ hnil] at hline
      simp [Token.Cursor.token, hnil] at hline
    have hlex : Token.lex lexOptions (input.cursor.within c.before.length c.after) =
        ((Token.lex lexOptions input.cursor).1.shift c.before.length,
          (Token.lex lexOptions input.cursor).2.within c.before.length c.after) :=
      Token.lexFrom_within _ _ lexOptions _ input.cursor rfl
        ((hq.placed input hhead hname).whole_rest hne) hline
    simp only [hlevel, if_true, bottom] at hset
    simp only [advanced, embed, hlevel, if_true, bottom, hlex, inputs_take, hset]
  · simp only [hlevel, if_false, above] at hset
    simp only [advanced, embed, hlevel, if_false, above, inputs_take, hset]

/-- Whatever is read, the output may enter a file first. -/
theorem onLine_of_entered {q : Preprocessor} {input : Input} (h : OnLine (entered q input)) :
    OnLine q := by
  unfold entered at h
  split at h
  · exact ⟨h.success, h.bottom⟩
  · exact h

theorem entered_keeps (q : Preprocessor) (input : Input) :
    (entered q input).stack = q.stack ∧ (entered q input).nextLevel = q.nextLevel ∧
      (entered q input).pushed = q.pushed := by
  unfold entered
  split <;> exact ⟨rfl, rfl, rfl⟩

theorem consume_of_none {q : Preprocessor} (h : q.stack ≠ [])
    (hget : q.stack[q.nextLevel]? = none) :
    consume q = .error .outOfRange := by
  have hempty : q.stack.isEmpty = false := by simpa using h
  have htake : (q.stack.take (q.nextLevel + 1))[q.nextLevel]? = none := by
    rw [List.getElem?_take_of_lt (Nat.lt_succ_self _), hget]
  unfold consume
  simp only [bind, StateT.bind, modify, modifyGet, MonadStateOf.modifyGet, StateT.modifyGet,
    Except.bind, pure, Except.pure,
    get, getThe, MonadStateOf.get, StateT.get, hempty, Bool.false_eq_true, if_false, htake]
  rfl

instance consume_local : Local c consume consume where
  onLine q b q' h hend := by
    by_cases hnil : q.stack = []
    · rw [consume_of_nil hnil] at h
      cases h
      exact absurd hnil hend.stack_ne_nil
    cases hget : q.stack[q.nextLevel]? with
    | none =>
      rw [consume_of_none hnil hget] at h
      cases h
    | some input =>
      rw [consume_of_some hget] at h
      have hnoted : Local c (noted q.nextLevel input.next) (noted q.nextLevel input.next) :=
        noted_local rfl rfl
      obtain ⟨hstack, hlevel, -⟩ := entered_keeps q input
      exact onLine_of_entered (onLine_of_advanced (by rwa [hstack, hlevel]) (hnoted.onLine h hend))
  embed q b q' h hq hend := by
    by_cases hnil : q.stack = []
    · rw [consume_of_nil hnil] at h
      cases h
      exact absurd hnil hend.stack_ne_nil
    cases hget : q.stack[q.nextLevel]? with
    | none =>
      rw [consume_of_none hnil hget] at h
      cases h
    | some input =>
      have hname := hq.named input (List.mem_of_getElem? hget)
      rw [consume_of_some hget, entered_eq hname] at h
      have hnoted : Local c (noted q.nextLevel input.next)
          (noted q.nextLevel (if q.nextLevel = 0 then c.bottom input else c.above input).next) := by
        refine noted_local ?_ ?_ <;> split <;> rfl
      obtain ⟨hq', hembed⟩ := hnoted.embed h (advanced_sound hget hq) hend
      refine ⟨hq', fun i => ?_⟩
      obtain ⟨j, hj⟩ := hembed i
      refine ⟨j, ?_⟩
      have hget' : (c.embed i q).stack[(c.embed i q).nextLevel]? =
          some (if q.nextLevel = 0 then c.bottom input else c.above input) := by
        rw [embed_stack, embed_nextLevel, inputs_getElem?, hget]
        split <;> rfl
      rw [consume_of_some hget', entered_eq ?_, advanced_embed hget hq (hnoted.onLine h hend)]
      · exact hj
      · rw [embed_source]
        split <;> exact hname

/-- The input for a text that is located at the current token. -/
def pushedInput (q : Preprocessor) (text : String) (isArgument : Bool) : Input where
  name := ""
  isArgument := isArgument
  text := text.toList
  cursor := Token.Cursor.start text q.token.location
  next := { kind := .unknown, location := q.token.location }
  hidden := (q.stack.getLast?.map (·.hidden)).getD []
  serial := q.pushed

/-- The state in which a text lies on top of the stack. -/
def withPushed (q : Preprocessor) (text : String) (isArgument : Bool) : Preprocessor :=
  { q with
    stack := q.stack ++ [pushedInput q text isArgument]
    nextLevel := q.stack.length
    pushed := q.pushed + 1 }

theorem push_eq (text : String) (isArgument : Bool) (q : Preprocessor) :
    push text "" isArgument q = (do let _ ← consume) (withPushed q text isArgument) := rfl

theorem head?_withPushed {q : Preprocessor} {text : String} {isArgument : Bool} {b : Input}
    (hb : (withPushed q text isArgument).stack.head? = some b) (hname : b.name ≠ "") :
    q.stack.head? = some b := by
  unfold withPushed at hb
  cases hstack : q.stack with
  | nil =>
    rw [hstack] at hb
    cases hb
    exact absurd rfl hname
  | cons first rest =>
    rw [hstack] at hb
    exact hb

theorem onLine_of_withPushed {q : Preprocessor} {text : String} {isArgument : Bool}
    (h : OnLine (withPushed q text isArgument)) : OnLine q := by
  obtain ⟨hsuccess, b, hb, hname, hline⟩ := h
  exact ⟨hsuccess, b, head?_withPushed hb hname, hname, hline⟩

theorem withPushed_sound {q : Preprocessor} {text : String} {isArgument : Bool} (hq : Sound c q) :
    Sound c (withPushed q text isArgument) := by
  constructor
  · exact hq.setting
  · exact hq.groups
  · exact hq.overflow
  · exact Nat.succ_pos _
  · intro entry hentry hname
    obtain hmem | hmem := List.mem_append.mp hentry
    · exact hq.named entry hmem hname
    · rw [List.mem_singleton] at hmem
      exact absurd (congrArg Input.name hmem) hname
  · exact fun b hb hname => hq.placed b (head?_withPushed hb hname) hname
  · exact fun b hb hname => hq.token b (head?_withPushed hb hname) hname

theorem withPushed_embed {q : Preprocessor} {text : String} {isArgument : Bool} {i : Location}
    (hq : Sound c q) (hne : q.stack ≠ []) :
    withPushed (c.embed i q) text isArgument = c.embed i (withPushed q text isArgument) := by
  have hinput :
      pushedInput (c.embed i q) text isArgument = c.above (pushedInput q text isArgument) := by
    simp only [pushedInput, above, embed_token_location, embed_stack, embed_pushed, inputs_getLast?,
      number_of_pos hq.pushed]
  have hstack : (c.embed i q).stack ++ [pushedInput (c.embed i q) text isArgument] =
      c.inputs (q.stack ++ [pushedInput q text isArgument]) := by
    rw [hinput, inputs_append hne, embed_stack]
  have hlength : (c.embed i q).stack.length = q.stack.length := inputs_length q.stack
  unfold withPushed
  rw [hstack, hlength]
  simp only [embed, Nat.add_right_comm]

instance push_local {text : String} {isArgument : Bool} :
    Local c (push text "" isArgument) (push text "" isArgument) := by
  have hconsume : Local c (do let _ ← consume : PreM Unit) (do let _ ← consume : PreM Unit) :=
    inferInstance
  constructor
  · intro q b q' h hend
    rw [push_eq] at h
    exact onLine_of_withPushed (hconsume.onLine h hend)
  · intro q b q' h hq hend
    rw [push_eq] at h
    obtain ⟨hq', hembed⟩ := hconsume.embed h (withPushed_sound hq) hend
    refine ⟨hq', fun i => ?_⟩
    rw [push_eq, withPushed_embed hq (onLine_of_withPushed (hconsume.onLine h hend)).stack_ne_nil]
    exact hembed i

theorem Finish.keeps {level : Nat} {q q' : Preprocessor} {b : Bool} (h : Finish level q b q') :
    q'.level = q.level ∧ q'.pushed = q.pushed := by
  cases h with
  | goesOn => exact ⟨rfl, rfl⟩
  | reports _ hclose =>
    obtain ⟨_, _, _, rfl, -⟩ := closeGroups_changes hclose
    exact ⟨rfl, rfl⟩
  | ends _ hclose =>
    obtain ⟨_, _, _, rfl, -⟩ := closeGroups_changes hclose
    exact ⟨rfl, rfl⟩

theorem popFinished_keeps {level : Nat} {q q' : Preprocessor} {b : Bool}
    (h : popFinished level q = .ok (b, q')) :
    q'.level = q.level ∧ q'.pushed = q.pushed := by
  induction level generalizing q with
  | zero =>
    obtain ⟨finished, q₁, hfinish, h⟩ := bind_eq_ok.mp h
    obtain ⟨hlevel, hpushed⟩ := (isFinished_eq_ok.mp hfinish).keeps
    cases finished with
    | false =>
      obtain ⟨-, rfl⟩ := pure_eq_ok.mp h
      exact ⟨hlevel, hpushed⟩
    | true =>
      obtain ⟨_, _, hempty, h⟩ := bind_eq_ok.mp h
      obtain rfl := modify_eq_ok.mp hempty
      obtain ⟨-, rfl⟩ := pure_eq_ok.mp h
      exact ⟨hlevel, hpushed⟩
  | succ level ih =>
    obtain ⟨finished, q₁, hfinish, h⟩ := bind_eq_ok.mp h
    obtain ⟨hlevel, hpushed⟩ := (isFinished_eq_ok.mp hfinish).keeps
    cases finished with
    | false =>
      obtain ⟨-, rfl⟩ := pure_eq_ok.mp h
      exact ⟨hlevel, hpushed⟩
    | true =>
      obtain ⟨_, _, hnext, h⟩ := bind_eq_ok.mp h
      obtain rfl := modify_eq_ok.mp hnext
      obtain ⟨hlevel', hpushed'⟩ := ih h
      exact ⟨hlevel'.trans hlevel, hpushed'.trans hpushed⟩

theorem noted_keeps {level : Nat} {t : Token} {q q' : Preprocessor} {b : Bool}
    (h : noted level t q = .ok (b, q')) :
    q'.level = q.level ∧ q'.pushed = q.pushed := by
  unfold noted at h
  obtain ⟨-, h⟩ | ⟨-, h⟩ := ite_eq_ok.mp h
  · obtain ⟨_, _, herror, h⟩ := bind_eq_ok.mp h
    obtain rfl := modify_eq_ok.mp herror
    have := popFinished_keeps h
    exact this
  · exact popFinished_keeps h

theorem consume_keeps {q q' : Preprocessor} {b : Bool} (h : consume q = .ok (b, q')) :
    q'.level = q.nextLevel ∧ q'.pushed = q.pushed := by
  by_cases hnil : q.stack = []
  · rw [consume_of_nil hnil] at h
    cases h
    exact ⟨rfl, rfl⟩
  cases hget : q.stack[q.nextLevel]? with
  | none =>
    rw [consume_of_none hnil hget] at h
    cases h
  | some input =>
    rw [consume_of_some hget] at h
    obtain ⟨hlevel, hpushed⟩ := noted_keeps h
    obtain ⟨-, hnext, hcount⟩ := entered_keeps q input
    exact ⟨hlevel.trans hnext, hpushed.trans hcount⟩

theorem push_keeps {text : String} {isArgument : Bool} {q q' : Preprocessor} {u : Unit}
    (h : push text "" isArgument q = .ok (u, q')) :
    q'.level = q.stack.length ∧ q'.pushed = q.pushed + 1 := by
  rw [push_eq] at h
  obtain ⟨_, _, hconsume, h⟩ := bind_eq_ok.mp h
  obtain ⟨-, rfl⟩ := pure_eq_ok.mp h
  exact consume_keeps hconsume

theorem hide_eq_ok {name : String} {q q' : Preprocessor} {u : Unit} :
    hide name q = .ok (u, q') ↔
      ∃ input, q.stack[q.level]? = some input ∧
        q' = withInput q q.level { input with hidden := name :: input.hidden } := by
  unfold hide
  simp only [bind_eq_ok, get_eq_ok]
  constructor
  · rintro ⟨_, _, ⟨rfl, rfl⟩, h⟩
    cases hget : q.stack[q.level]? with
    | none =>
      rw [hget] at h
      exact absurd h throw_eq_ok.mp
    | some input =>
      rw [hget] at h
      exact ⟨input, rfl, (set_eq_ok.mp h).symm⟩
  · rintro ⟨input, hget, rfl⟩
    refine ⟨q, q, ⟨rfl, rfl⟩, ?_⟩
    rw [hget]
    exact set_eq_ok.mpr rfl

/-- A macro is hidden in the text that was pushed. -/
instance push_hide_local {text name : String} {isArgument : Bool} :
    Local c (do push text "" isArgument; hide name) (do push text "" isArgument; hide name) where
  onLine q b q' h hend := by
    obtain ⟨_, q₁, hpush, hhide⟩ := bind_eq_ok.mp h
    obtain ⟨input, hget, rfl⟩ := hide_eq_ok.mp hhide
    exact (push_local (c := c)).onLine hpush (onLine_of_withInput hend hget rfl rfl rfl)
  embed q b q' h hq hend := by
    obtain ⟨_, q₁, hpush, hhide⟩ := bind_eq_ok.mp h
    obtain ⟨input, hget, rfl⟩ := hide_eq_ok.mp hhide
    have hend₁ := onLine_of_withInput hend hget rfl rfl rfl
    obtain ⟨hq₁, hembed⟩ := (push_local (c := c)).embed hpush hq hend₁
    obtain ⟨level, hlevel⟩ : ∃ level, q₁.level = level + 1 := by
      rw [(push_keeps hpush).1]
      exact Nat.exists_eq_succ_of_ne_zero fun hzero =>
        ((push_local (c := c)).onLine hpush hend₁).stack_ne_nil (List.length_eq_zero_iff.mp hzero)
    rw [hlevel] at hget ⊢
    refine ⟨withInput_sound hq₁ hget rfl, fun i => ?_⟩
    obtain ⟨j, hj⟩ := hembed i
    refine ⟨j, bind_eq_ok.mpr ⟨(), _, hj, hide_eq_ok.mpr ⟨c.above input, ?_, ?_⟩⟩⟩
    · rw [embed_level, hlevel, embed_stack, inputs_getElem?, hget]
      rfl
    · rw [embed_level, hlevel, ← withInput_embed]
      rfl

instance push_hide_bind_local {text name : String} {isArgument : Bool} {f g : Unit → PreM α}
    [hf : ∀ u, Local c (f u) (g u)] :
    Local c (push text "" isArgument >>= fun _ => hide name >>= f)
      (push text "" isArgument >>= fun _ => hide name >>= g) := by
  rw [← bind_assoc, ← bind_assoc]
  infer_instance

instance skipLine_local {fuel : Nat} : Local c (skipLine fuel) (skipLine fuel) := by
  unfold skipLine
  infer_instance

instance accept_local {fuel : Nat} {kind : Token.Kind} :
    Local c (accept fuel kind) (accept fuel kind) := by
  unfold accept
  infer_instance

instance expect_local {fuel : Nat} {kind : Token.Kind} :
    Local c (expect fuel kind) (expect fuel kind) := by
  have hreport : Local c
      (get >>= fun p : Preprocessor => do
        let actual : Token := (p.stack[p.nextLevel]?.map (·.next)).getD {}
        error { actual.location with source := p.reached.source }
          ("syntax error: unexpected token '" ++ actual.raw ++ "'")
        pure false)
      (get >>= fun p : Preprocessor => do
        let actual : Token := (p.stack[p.nextLevel]?.map (·.next)).getD {}
        error { actual.location with source := p.reached.source }
          ("syntax error: unexpected token '" ++ actual.raw ++ "'")
        pure false) :=
    .get fun q i => inferInstance
  unfold expect
  infer_instance

end ShaderEffect.Preprocessor
