import ShaderEffect.Proofs.Preprocessing.Ahead

namespace ShaderEffect.Preprocessor

open Surroundings

variable {α : Type} {e : Setting} {text rest line : List Char} {serial fuel k l : Nat}
  {σ σ' : Scope} {p p' q : Preprocessor} {holds : Bool} {c : Surroundings}

/-- Whether a run that has read a part of a line ends in a state. -/
def Runs (fuel n : Nat) (line : String) (p q : Preprocessor) : Prop :=
  (repeatWith (processNext fuel) n line >>= flushLine) p = .ok ((), q)

theorem runs_succ {n : Nat} {line : String} : Runs fuel (n + 1) line p q ↔
    (∃ line' p', processNext fuel line p = .ok (.inl line', p') ∧ Runs fuel n line' p' q) ∨
      ∃ line' p', processNext fuel line p = .ok (.inr line', p')
        ∧ flushLine line' p' = .ok ((), q) := by
  unfold Runs
  simp only [repeatWith, bind_assoc]
  constructor
  · intro h
    obtain ⟨r, p', hnext, h⟩ := bind_eq_ok.mp h
    cases r with
    | inl line' => exact .inl ⟨line', p', hnext, h⟩
    | inr line' => exact .inr ⟨line', p', hnext, h⟩
  · rintro (⟨line', p', hnext, h⟩ | ⟨line', p', hnext, h⟩)
    · exact bind_eq_ok.mpr ⟨_, _, hnext, h⟩
    · exact bind_eq_ok.mpr ⟨_, _, hnext, h⟩

theorem not_runs_zero {line : String} : ¬Runs fuel 0 line p q := by
  intro h
  obtain ⟨_, _, hzero, -⟩ := bind_eq_ok.mp h
  exact throw_eq_ok.mp hzero

theorem Runs.mono {m n : Nat} {line : String} (h : Runs fuel n line p q) (hmn : n ≤ m) :
    Runs fuel m line p q := by
  induction n generalizing m line p with
  | zero => exact absurd h not_runs_zero
  | succ n ih =>
    obtain ⟨m, rfl⟩ := Nat.exists_eq_add_one_of_ne_zero (Nat.ne_zero_of_lt hmn)
    refine runs_succ.mpr ((runs_succ.mp h).imp_left ?_)
    rintro ⟨line', p', hnext, h⟩
    exact ⟨line', p', hnext, ih h (Nat.le_of_succ_le_succ hmn)⟩

/-- Whether a run goes on from one state to another in a number of rounds. -/
def Passes (fuel k : Nat) (line : String) (p : Preprocessor) (line' : String) (p' : Preprocessor) :
    Prop :=
  ∀ n q, Runs fuel n line' p' q → Runs fuel (n + k) line p q

theorem Passes.refl {line : String} : Passes fuel 0 line p line p := fun _ _ h => h

theorem Passes.trans {p₁ : Preprocessor} {line line₁ line' : String}
    (h : Passes fuel k line p line₁ p₁)
    (h' : Passes fuel l line₁ p₁ line' p') : Passes fuel (k + l) line p line' p' := by
  intro n q hruns
  rw [Nat.add_comm k, ← Nat.add_assoc]
  exact h _ q (h' n q hruns)

theorem passes_of_next {line line' : String} (h : processNext fuel line p = .ok (.inl line', p')) :
    Passes fuel 1 line p line' p' := fun _ _ hruns => runs_succ.mpr (.inl ⟨line', p', h, hruns⟩)

theorem Passes.mono {line line' : String} (h : Passes fuel k line p line' p') (hkl : k ≤ l) :
    Passes fuel l line p line' p' := fun n q hruns => (h n q hruns).mono (Nat.add_le_add_left hkl n)

/-- The number of the last of some lines, or of the line before them. -/
def lastLine : (reached : Int) → List (Int × String) → Int
  | reached, [] => reached
  | _, (n, _) :: rest => lastLine n rest

theorem lastLine_append {reached : Int} {lines lines' : List (Int × String)} :
    lastLine reached (lines ++ lines') = lastLine (lastLine reached lines) lines' := by
  induction lines generalizing reached with
  | nil => rfl
  | cons line lines ih => exact ih

theorem rendered_append {reached : Int} {lines lines' : List (Int × String)} :
    rendered reached (lines ++ lines') = rendered reached lines
      ++ rendered (lastLine reached lines) lines' := by
  induction lines generalizing reached with
  | nil => rw [List.nil_append, rendered, String.empty_append, lastLine]
  | cons line lines ih =>
    rw [List.cons_append, rendered, rendered, ih, lastLine, ← String.append_assoc]

/-- Whether a run goes on to the start of another line and writes some lines in between. -/
structure Reached (fuel k : Nat) (e : Setting) (text : List Char) (serial : Nat) (σ' : Scope)
    (rest : List Char) (lines : List (Int × String)) (p p' : Preprocessor) : Prop where
  passes : Passes fuel k "" p "" p'
  ahead : Ahead e text serial σ' rest p'
  output : p'.output = p.output ++ rendered p.reached.line lines
  line : p'.reached.line = lastLine p.reached.line lines

theorem Reached.trans {p₁ : Preprocessor} {σ₁ : Scope} {rest₁ : List Char}
    {lines lines' : List (Int × String)}
    (h : Reached fuel k e text serial σ₁ rest₁ lines p p₁)
    (h' : Reached fuel l e text serial σ' rest lines' p₁ p') :
    Reached fuel (k + l) e text serial σ' rest (lines ++ lines') p p' where
  passes := h.passes.trans h'.passes
  ahead := h'.ahead
  output := by rw [h'.output, h.output, h.line, rendered_append, String.append_assoc]
  line := by rw [h'.line, h.line, lastLine_append]

theorem Reached.mono {lines : List (Int × String)}
    (h : Reached fuel k e text serial σ' rest lines p p') (hkl : k ≤ l) :
    Reached fuel l e text serial σ' rest lines p p' :=
  ⟨h.passes.mono hkl, h.ahead, h.output, h.line⟩

/-- Whether a line is selected where some groups are open. -/
def isActive (groups : List Group) : Bool :=
  !(groups.head?.map (·.skipping)).getD false

theorem isSkipping_eq : p.isSkipping = !isActive p.groups := by
  rw [isActive, Bool.not_not]
  rfl

theorem outerSkipping_eq : outerSkipping p = !isActive p.groups.tail := by
  rw [isActive, Bool.not_not, outerSkipping]
  cases p.groups with
  | nil => rfl
  | cons g rest => rw [List.getElem?_cons_succ, List.tail_cons, List.head?_eq_getElem?]

end ShaderEffect.Preprocessor

namespace ShaderEffect.Preprocessor.Surroundings

/-- The surroundings with other groups open. -/
def regroup (c : Surroundings) (groups : List Group) (hlevel : ∀ g ∈ groups, g.level = 0)
    (used : List String) :
    Surroundings :=
  { c with groups, level_eq := hlevel, usedMacros := used }

end ShaderEffect.Preprocessor.Surroundings

namespace ShaderEffect.Preprocessor

open Surroundings

variable {α : Type} {e : Setting} {text rest line : List Char} {serial fuel k l : Nat}
  {σ σ' : Scope} {p p' q : Preprocessor} {holds : Bool} {c : Surroundings}

section

variable (groups : List Group) (hlevel : ∀ g ∈ groups, g.level = 0) (used : List String)

theorem Sound.regroup (h : Sound c q) : Sound (c.regroup groups hlevel used) q :=
  ⟨h.setting, h.groups, h.overflow, h.pushed, h.named, h.placed, h.token⟩

theorem Leaving.of_regroup {groups : List Group} {hlevel : ∀ g ∈ groups, g.level = 0}
    {used : List String} (h : Leaving fuel σ' (c.regroup groups hlevel used) q) :
    Leaving fuel σ' c q :=
  have hq := h.sound
  ⟨⟨hq.setting, hq.groups, hq.overflow, hq.pushed, hq.named, hq.placed, hq.token⟩, h.ends⟩

theorem Reading.regroup {run : PreM α} {a : α} (h : Reading fuel run a σ' c q) :
    Reading fuel run a σ' (c.regroup groups hlevel used) q :=
  ⟨h.sound.regroup groups hlevel used, h.ends⟩

theorem Leaving.regroup (h : Leaving fuel σ' c q) :
    Leaving fuel σ' (c.regroup groups hlevel used) q :=
  ⟨h.sound.regroup groups hlevel used, h.ends⟩

/-- Behind a directive that has replaced the groups the next line starts. -/
theorem Leaving.reached (h : Leaving fuel σ' c q) (ha : IsAround e text rest serial p c)
    (hbegins : rest ≠ [] → Begins σ' rest) (hclosed : rest = [] → groups = [])
    (j : Location) :
    ∃ p', endDirective fuel ((c.regroup groups hlevel used).embed j q) = .ok ((), p') ∧
      Ahead e text serial σ' rest p' ∧ p'.groups = groups
        ∧ p'.output = p.output ∧ p'.reached.line = p.reached.line := by
  obtain ⟨rfl, rfl, rfl, rfl, -, houtput, hline⟩ := ha
  obtain ⟨p', hend, hahead, hgroups, houtput', hline'⟩ :=
    (h.regroup groups hlevel used).nextLine hbegins hclosed j
  exact ⟨p', hend, hahead, hgroups, houtput'.trans houtput, hline'.trans hline⟩

end

variable {groups : List Group} {hlevel : ∀ g ∈ groups, g.level = 0} {used : List String}

/-- A directive that is obeyed wherever it stands takes one round. -/
theorem processNext_conditional {run : PreM Unit} {p₀ p₁ : Preprocessor}
    (hconsume : consume p = .ok (true, p₀)) (hrun : conditional? fuel p₀.token.kind = some run)
    (hread : run { p₀ with expansions := 0 } = .ok ((), p₁))
    (hend : endDirective fuel p₁ = .ok ((), p')) : processNext fuel "" p = .ok (.inl "", p') := by
  refine bind_eq_ok.mpr ⟨true, p₀, hconsume, ?_⟩
  refine bind_eq_ok.mpr ⟨(), _, modify_eq_ok.mpr rfl,
    bind_eq_ok.mpr ⟨_, _, get_eq_ok.mpr ⟨rfl, rfl⟩, ?_⟩⟩
  simp only [hrun]
  exact bind_eq_ok.mpr ⟨(), _, hread,
    bind_eq_ok.mpr ⟨(), _, hend, pure_eq_ok.mpr ⟨rfl, rfl⟩⟩⟩

/-- The group that a directive opens among other groups. -/
def opened (t : Token) (holds : Bool) (groups : List Group) : List Group :=
  { taken := holds, skipping := !(isActive groups && holds), directive := t, level := 0 } :: groups

theorem opened_level {t : Token} (h : ∀ g ∈ groups, g.level = 0) :
    ∀ g ∈ opened t holds groups, g.level = 0 := by
  intro g hg
  obtain rfl | hg := List.mem_cons.mp hg
  · rfl
  · exact h g hg

theorem openGroup_embed (holds : Bool) {t : Token} {j : Location} :
    openGroup t 0 holds (c.embed j q)
      = .ok ((), (c.regroup (opened t holds c.groups) (opened_level c.level_eq)
        c.usedMacros).embed j q) := by
  refine modify_eq_ok.mpr ?_
  have hskipping : ((c.embed j q).isSkipping || !holds) = !(isActive c.groups && holds) := by
    rw [isSkipping_eq, Bool.not_and]
    rfl
  simp only [hskipping]
  rfl

/-- Which condition an opening directive has. -/
theorem opening?_eq_some {kind : Token.Kind} {run : PreM Bool} (h : opening? fuel kind = some run) :
    kind ≠ .hashElse ∧ (kind = .hashIf ∧ run = evaluateCondition fuel ∨
      ∃ expected, conditional? fuel kind = some (parseIfdef fuel expected)
        ∧ run = isDefined fuel expected) := by
  unfold opening? at h
  split at h
  · exact ⟨Token.Kind.noConfusion, .inl ⟨rfl, (Option.some.inj h).symm⟩⟩
  · exact ⟨Token.Kind.noConfusion, .inr ⟨true, rfl, (Option.some.inj h).symm⟩⟩
  · exact ⟨Token.Kind.noConfusion, .inr ⟨false, rfl, (Option.some.inj h).symm⟩⟩
  · cases h

theorem parseIf_embed {i : Location} (hlevel : q.level = 0)
    (h : Reading fuel (evaluateCondition fuel) holds σ' c q) :
    ∃ t j q₁, t.kind = q.token.kind ∧ Leaving fuel σ' c q₁ ∧ parseIf fuel (c.embed i q) =
      .ok ((), (c.regroup (opened t holds c.groups) (opened_level c.level_eq) c.usedMacros).embed j
        q₁) := by
  obtain ⟨j, q₁, -, hread, hleaving⟩ := h.run i
  refine ⟨(c.embed i q).token, j, q₁, embed_token_kind, hleaving, ?_⟩
  refine bind_eq_ok.mpr ⟨_, _, get_eq_ok.mpr ⟨rfl, rfl⟩,
    bind_eq_ok.mpr ⟨holds, _, hread, ?_⟩⟩
  rw [embed_level, hlevel]
  exact openGroup_embed holds

/-- Without the expected token there is an error. -/
theorem expect_eq_true {kind : Token.Kind} {b : Bool} (h : expect fuel kind q = .ok (b, p'))
    (hend : OnLine p') : b = true := by
  obtain ⟨accepted, q₁, haccept, h⟩ := bind_eq_ok.mp h
  cases accepted with
  | true =>
    obtain ⟨rfl, -⟩ := pure_eq_ok.mp h
    rfl
  | false =>
    obtain ⟨_, _, hget, h⟩ := bind_eq_ok.mp h
    obtain ⟨_, _, herror, h⟩ := bind_eq_ok.mp h
    obtain ⟨-, rfl⟩ := pure_eq_ok.mp h
    exact absurd hend (not_onLine_of_error herror)

theorem parseIfdef_embed {i : Location} {expected : Bool} (hlevel : q.level = 0)
    (h : Reading fuel (isDefined fuel expected) holds σ' c q) :
    ∃ t used j q₁, t.kind = q.token.kind ∧ Leaving fuel σ' c q₁
      ∧ parseIfdef fuel expected (c.embed i q) =
      .ok ((), (c.regroup (opened t holds c.groups) (opened_level c.level_eq) used).embed j
        q₁) := by
  obtain ⟨q', q₂, hread, hends⟩ := h.ends
  obtain ⟨b, q₁, hexpect, hread⟩ := bind_eq_ok.mp hread
  obtain ⟨_, _, hget, hread⟩ := bind_eq_ok.mp hread
  obtain ⟨rfl, hsame⟩ := get_eq_ok.mp hget
  obtain ⟨rfl, rfl⟩ := pure_eq_ok.mp hread
  subst hsame
  have hname : Reading fuel (expect fuel .identifier) b σ' c q :=
    ⟨h.sound, _, q₂, hexpect, hends⟩
  obtain ⟨j, q₁, hexpect', hembed, hleaving⟩ := hname.run i
  obtain ⟨-, rfl⟩ := Prod.mk.inj (Except.ok.inj (hexpect.symm.trans hexpect'))
  obtain rfl := expect_eq_true hexpect hleaving.onLine
  -- What is known of the name is the same in the surroundings.
  have htext : (c.embed j q₁).token.text = q₁.token.text := embed_token_text
  have hopen :=
    openGroup_embed (c := c) (q := q₁)
      (decide (((q₁.findMacro? q₁.token.text).isSome || isBuiltin q₁.token.text) = expected))
    (t := (c.embed i q).token) (j := j)
  refine ⟨(c.embed i q).token,
    if (c.embed j q₁).isSkipping then c.usedMacros
    else if c.usedMacros.contains q₁.token.text then c.usedMacros else q₁.token.text
      :: c.usedMacros, j, q₁, embed_token_kind, hleaving, ?_⟩
  refine bind_eq_ok.mpr ⟨_, _, get_eq_ok.mpr ⟨rfl, rfl⟩,
    bind_eq_ok.mpr ⟨true, _, hembed, ?_⟩⟩
  refine bind_eq_ok.mpr ⟨_, _, get_eq_ok.mpr ⟨rfl, rfl⟩,
    bind_eq_ok.mpr ⟨_, _, get_eq_ok.mpr ⟨rfl, rfl⟩, ?_⟩⟩
  refine bind_eq_ok.mpr ⟨_, _, get_eq_ok.mpr ⟨rfl, rfl⟩, ?_⟩
  simp only [embed_level, hlevel, htext, embed_findMacro?]
  refine bind_eq_ok.mpr ⟨(), _, hopen, ?_⟩
  by_cases hskip : (c.embed j q₁).isSkipping = true
  · simp only [hskip, Bool.not_true, Bool.false_eq_true, if_false, if_true]
    rfl
  · simp only [hskip, Bool.not_false, Bool.false_eq_true, if_false, if_true]
    rfl

/-- A directive that has replaced the groups takes the run to the next line. -/
theorem conditional_reached {p₀ : Preprocessor} {handler : PreM Unit} {j : Location}
    (ha : IsAround e text rest serial p c) (hconsume : consume p = .ok (true, p₀))
    (hsame : { p₀ with expansions := 0 } = c.embed p.invocation q)
    (hhandler : conditional? fuel q.token.kind = some handler) {q₁ : Preprocessor}
    (hleaving : Leaving fuel σ' c q₁)
    (hrun : handler (c.embed p.invocation q)
      = .ok ((), (c.regroup groups hlevel used).embed j q₁))
    (hbegins : rest ≠ [] → Begins σ' rest) (hclosed : rest = [] → groups = []) :
    ∃ p', Reached fuel 1 e text serial σ' rest [] p p' ∧ p'.groups = groups := by
  obtain ⟨p', hend, hahead, hgroups, houtput, hline⟩ :=
    hleaving.reached groups hlevel used ha hbegins hclosed j
  have hkind : p₀.token.kind = q.token.kind := by
    have := congrArg (·.token.kind) hsame
    rwa [embed_token_kind] at this
  refine ⟨p',
    ⟨passes_of_next (processNext_conditional hconsume (hkind ▸ hhandler) (hsame ▸ hrun) hend),
      hahead, ?_, hline⟩, hgroups⟩
  rw [houtput, rendered, String.append_empty]

theorem opening_embed {run : PreM Bool} {i : Location}
    (hrun : opening? fuel q.token.kind = some run) (hlevel : q.level = 0)
    (h : Reading fuel run holds σ' c q) :
    ∃ handler t used j q₁, conditional? fuel q.token.kind = some handler
      ∧ t.kind ≠ .hashElse ∧ Leaving fuel σ' c q₁ ∧
      handler (c.embed i q) =
        .ok ((), (c.regroup (opened t holds c.groups) (opened_level c.level_eq) used).embed j
          q₁) := by
  obtain ⟨helse, ⟨hkind, rfl⟩ | ⟨expected, hhandler, rfl⟩⟩ := opening?_eq_some hrun
  · obtain ⟨t, j, q₁, ht, hleaving, hparse⟩ := parseIf_embed (i := i) hlevel h
    exact ⟨parseIf fuel, t, c.usedMacros, j, q₁, by rw [hkind]; rfl, ht ▸ helse,
      hleaving, hparse⟩
  · obtain ⟨t, used, j, q₁, ht, hleaving, hparse⟩ := parseIfdef_embed (i := i) hlevel h
    exact ⟨_, t, used, j, q₁, hhandler, ht ▸ helse, hleaving, hparse⟩

/-- `#if`, `#ifdef` and `#ifndef` open a group. -/
theorem opening_reached (hp : Ahead e text serial σ (line ++ '\n' :: rest) p)
    (h : e.directive fuel (opening? fuel) σ line = some (holds, σ')) (hrest : rest ≠ [])
    (hbegins : Begins σ' rest) :
    ∃ p' t, Reached fuel 1 e text serial σ' rest [] p p'
      ∧ p'.groups = opened t holds p.groups ∧ t.kind ≠ .hashElse := by
  obtain ⟨run, c, q, p₀, hrun, hlevel, hconsume, hsame, hreading, ha⟩ :=
    hp.start isReader_opening h
  obtain ⟨handler, t, used, j, q₁, hhandler, ht, hleaving, hparse⟩ :=
    opening_embed hrun hlevel hreading
  obtain ⟨p', hreached, hgroups⟩ :=
    conditional_reached ha hconsume hsame hhandler hleaving hparse (fun _ => hbegins)
      fun hnil => absurd hnil hrest
  exact ⟨p', t, hreached, ha.groups ▸ hgroups, ht⟩

theorem only_eq_some {kind k : Token.Kind} {run run' : PreM α} (h : only kind run k = some run') :
    k = kind ∧ run' = run := by
  unfold only at h
  split at h
  · exact ⟨‹_›, (Option.some.inj h).symm⟩
  · cases h

theorem nextBranch_eq {name : String} {g : Group} {outer : List Group}
    (hgroups : q.groups = g :: outer)
    (hkind : g.directive.kind ≠ .hashElse) : nextBranch name q = .ok (some g, q) := by
  refine bind_eq_ok.mpr ⟨_, _, get_eq_ok.mpr ⟨rfl, rfl⟩, ?_⟩
  simp only [hgroups, hkind, if_false]
  exact pure_eq_ok.mpr ⟨rfl, rfl⟩

/-- The branch that a directive starts in the innermost group. -/
def branch (t : Token) (taken skipping : Bool) (outer : List Group) : List Group :=
  { taken, skipping, directive := t, level := 0 } :: outer

theorem branch_level {t : Token} {taken skipping : Bool} {outer : List Group}
    (h : ∀ g ∈ outer, g.level = 0) :
    ∀ g ∈ branch t taken skipping outer, g.level = 0 := by
  intro g hg
  obtain rfl | hg := List.mem_cons.mp hg
  · rfl
  · exact h g hg

theorem setGroup_embed {g : Group} {outer : List Group} {j : Location} (hg : g.level = 0)
    (houter : ∀ g ∈ outer, g.level = 0)
    (hgroups : (c.embed j q).groups.tail = outer) : setGroup g (c.embed j q) =
      .ok ((), (c.regroup (g :: outer) (List.forall_mem_cons.mpr ⟨hg, houter⟩)
        c.usedMacros).embed j q) := by
  refine modify_eq_ok.mpr ?_
  rw [hgroups]
  rfl

theorem outerSkipping_embed {g : Group} {outer : List Group} {j : Location}
    (hgroups : (c.embed j q).groups = g :: outer) :
    outerSkipping (c.embed j q) = !isActive outer := by
  rw [outerSkipping_eq, hgroups]
  rfl

/-- `#elif` starts a branch that is selected if its condition holds and no branch was
selected before. -/
theorem elif_reached {g : Group} {outer : List Group}
    (hp : Ahead e text serial σ (line ++ '\n' :: rest) p)
    (h : e.directive fuel (only .hashElif (evaluateCondition fuel)) σ line = some (holds, σ'))
    (hrest : rest ≠ []) (hbegins : Begins σ' rest) (hgroups : p.groups = g :: outer)
    (hkind : g.directive.kind ≠ .hashElse) :
    ∃ p' t, Reached fuel 1 e text serial σ' rest [] p p' ∧ t.kind ≠ .hashElse ∧
      p'.groups = branch t (g.taken || holds) (!(isActive outer && !g.taken && holds)) outer := by
  obtain ⟨run, c, q, p₀, hrun, hlevel, hconsume, hsame, hreading, ha⟩ :=
    hp.start (isReader_only Token.Kind.noConfusion) h
  obtain ⟨hq, rfl⟩ := only_eq_some hrun
  have hstate : (c.embed p.invocation q).groups = g :: outer := ha.groups.trans hgroups
  have houter : ∀ g ∈ outer, g.level = 0 :=
    fun g hg => hp.level_eq g (hgroups ▸ List.mem_cons_of_mem _ hg)
  -- The condition is read with the directive in the group.
  have hreading' :=
    hreading.regroup ({ g with directive := (c.embed p.invocation q).token, level := 0 } :: outer)
      (List.forall_mem_cons.mpr ⟨rfl, houter⟩) c.usedMacros
  obtain ⟨j, q₁, -, hcondition, hleaving⟩ := hreading'.run p.invocation
  have hparse : parseElif fuel (c.embed p.invocation q) = .ok ((), (c.regroup
      (branch (c.embed p.invocation q).token (g.taken || holds)
        (!(isActive outer && !g.taken && holds)) outer)
      (branch_level houter) c.usedMacros).embed j q₁) := by
    refine bind_eq_ok.mpr ⟨some g, _, nextBranch_eq hstate hkind,
      bind_eq_ok.mpr ⟨_, _, get_eq_ok.mpr ⟨rfl, rfl⟩, ?_⟩⟩
    simp only [embed_level, hlevel, outerSkipping_embed hstate]
    refine bind_eq_ok.mpr ⟨(), _, setGroup_embed rfl houter (congrArg List.tail hstate),
      bind_eq_ok.mpr ⟨holds, _, hcondition, ?_⟩⟩
    refine bind_eq_ok.mpr ⟨_, _, get_eq_ok.mpr ⟨rfl, rfl⟩, ?_⟩
    have hselected :
        (!isActive outer || g.taken || !holds) = !(isActive outer && !g.taken && holds) := by
      rw [Bool.not_and, Bool.not_and, Bool.not_not]
    rw [if_pos (by rw [hstate]; rfl), setGroup_embed rfl houter rfl]
    simp only [hselected]
    rfl
  obtain ⟨p', hreached, hgroups'⟩ :=
    conditional_reached ha hconsume hsame (by rw [hq]; rfl) hleaving.of_regroup hparse
      (fun _ => hbegins) fun hnil => absurd hnil hrest
  refine ⟨p', _, hreached, ?_, hgroups'⟩
  rw [embed_token_kind, hq]
  exact Token.Kind.noConfusion

theorem Reading.leaving {u : Unit} (h : Reading fuel (pure ()) u σ' c q) :
    Leaving fuel σ' c q := by
  obtain ⟨q₁, q₂, hpure, hends⟩ := h.ends
  obtain ⟨-, rfl⟩ := pure_eq_ok.mp hpure
  exact ⟨h.sound, q₂, hends⟩

/-- `#else` starts a branch that is selected if no branch was selected before. -/
theorem else_reached {g : Group} {outer : List Group} {u : Unit}
    (hp : Ahead e text serial σ (line ++ '\n' :: rest) p)
    (h : e.directive fuel (only .hashElse (pure ())) σ line = some (u, σ')) (hrest : rest ≠ [])
    (hbegins : Begins σ' rest) (hgroups : p.groups = g :: outer)
    (hkind : g.directive.kind ≠ .hashElse) :
    ∃ p' t, Reached fuel 1 e text serial σ' rest [] p p' ∧
      p'.groups = branch t true (!(isActive outer && !g.taken)) outer := by
  obtain ⟨run, c, q, p₀, hrun, hlevel, hconsume, hsame, hreading, ha⟩ :=
    hp.start (isReader_only Token.Kind.noConfusion) h
  obtain ⟨hq, rfl⟩ := only_eq_some hrun
  have hstate : (c.embed p.invocation q).groups = g :: outer := ha.groups.trans hgroups
  have houter : ∀ g ∈ outer, g.level = 0 :=
    fun g hg => hp.level_eq g (hgroups ▸ List.mem_cons_of_mem _ hg)
  have hparse : parseElse (c.embed p.invocation q) = .ok ((), (c.regroup
      (branch (c.embed p.invocation q).token true (!(isActive outer && !g.taken)) outer)
        (branch_level houter)
      c.usedMacros).embed p.invocation q) := by
    refine bind_eq_ok.mpr ⟨some g, _, nextBranch_eq hstate hkind,
      bind_eq_ok.mpr ⟨_, _, get_eq_ok.mpr ⟨rfl, rfl⟩, ?_⟩⟩
    simp only [embed_level, hlevel, outerSkipping_embed hstate]
    rw [setGroup_embed rfl houter (congrArg List.tail hstate), Bool.not_and, Bool.not_not]
    rfl
  obtain ⟨p', hreached, hgroups'⟩ :=
    conditional_reached ha hconsume hsame (by rw [hq]; rfl) hreading.leaving hparse
      (fun _ => hbegins) fun hnil => absurd hnil hrest
  exact ⟨p', _, hreached, hgroups'⟩

/-- `#endif` closes the innermost group. -/
theorem endif_reached {g : Group} {outer : List Group} {u : Unit}
    (hp : Ahead e text serial σ (line ++ '\n' :: rest) p)
    (h : e.directive fuel (only .hashEndif (pure ())) σ line = some (u, σ'))
    (hbegins : rest ≠ [] → Begins σ' rest)
    (hclosed : rest = [] → outer = []) (hgroups : p.groups = g :: outer) :
    ∃ p', Reached fuel 1 e text serial σ' rest [] p p' ∧ p'.groups = outer := by
  obtain ⟨run, c, q, p₀, hrun, hlevel, hconsume, hsame, hreading, ha⟩ :=
    hp.start (isReader_only Token.Kind.noConfusion) h
  obtain ⟨hq, rfl⟩ := only_eq_some hrun
  have hstate : (c.embed p.invocation q).groups = g :: outer := ha.groups.trans hgroups
  have houter : ∀ g ∈ outer, g.level = 0 :=
    fun g hg => hp.level_eq g (hgroups ▸ List.mem_cons_of_mem _ hg)
  have hparse : parseEndif (c.embed p.invocation q) =
      .ok ((), (c.regroup outer houter c.usedMacros).embed p.invocation q) := by
    refine bind_eq_ok.mpr ⟨_, _, get_eq_ok.mpr ⟨rfl, rfl⟩, ?_⟩
    rw [hstate]
    rfl
  exact conditional_reached ha hconsume hsame (by rw [hq]; rfl) hreading.leaving hparse
    hbegins hclosed

theorem change?_eq_some {kind : Token.Kind} {run : PreM Unit} (h : change? fuel kind = some run) :
    conditional? fuel kind = none ∧ directive? fuel kind = some run := by
  unfold change? at h
  split at h
  · exact ⟨rfl, h⟩
  · exact ⟨rfl, h⟩
  · cases h

/-- `#define` and `#undef` change the macros where they are selected. -/
theorem change_reached {u : Unit} (hp : Ahead e text serial σ (line ++ '\n' :: rest) p)
    (h : e.directive fuel (change? fuel) σ line = some (u, σ'))
    (hactive : isActive p.groups = true)
    (hbegins : rest ≠ [] → Begins σ' rest) (hclosed : rest = [] → p.groups = []) :
    ∃ p', Reached fuel 1 e text serial σ' rest [] p p' ∧ p'.groups = p.groups := by
  obtain ⟨run, c, q, p₀, hrun, hlevel, hconsume, hsame, hreading, ha⟩ :=
    hp.start isReader_change h
  have : Local c run run := isReader_change.readsLine hrun c
  obtain ⟨hconditional, hdirective⟩ := change?_eq_some hrun
  obtain ⟨j, q₁, -, hread, hleaving⟩ := hreading.run p.invocation
  obtain ⟨p', hend, hahead, hgroups, houtput, hline⟩ :=
    hleaving.reached c.groups c.level_eq c.usedMacros ha hbegins
      (fun hnil => ha.groups.trans (hclosed hnil)) j
  have hkind : (c.embed p.invocation q).token.kind = q.token.kind := embed_token_kind
  have hskip : (c.embed p.invocation q).isSkipping = false := by
    rw [isSkipping_eq, show (c.embed p.invocation q).groups = p.groups from ha.groups, hactive]
    rfl
  have htoken : processToken fuel "" (c.embed p.invocation q) = .ok ("", p') := by
    refine bind_eq_ok.mpr ⟨_, _, get_eq_ok.mpr ⟨rfl, rfl⟩, ?_⟩
    simp only [hkind, hdirective]
    exact bind_eq_ok.mpr ⟨u, _, hread,
      bind_eq_ok.mpr ⟨(), _, hend, pure_eq_ok.mpr ⟨rfl, rfl⟩⟩⟩
  have hnext : processNext fuel "" p = .ok (.inl "", p') := by
    refine bind_eq_ok.mpr ⟨true, p₀, hconsume,
      bind_eq_ok.mpr ⟨(), _, modify_eq_ok.mpr hsame, ?_⟩⟩
    refine bind_eq_ok.mpr ⟨_, _, get_eq_ok.mpr ⟨rfl, rfl⟩, ?_⟩
    simp only [hkind, hconditional]
    refine bind_eq_ok.mpr ⟨_, _, get_eq_ok.mpr ⟨rfl, rfl⟩, ?_⟩
    rw [hskip]
    exact bind_eq_ok.mpr ⟨"", _, htoken, pure_eq_ok.mpr ⟨rfl, rfl⟩⟩
  refine ⟨p', ⟨passes_of_next hnext, hahead, ?_, hline⟩, hgroups.trans ha.groups⟩
  rw [houtput, rendered, String.append_empty]

end ShaderEffect.Preprocessor
