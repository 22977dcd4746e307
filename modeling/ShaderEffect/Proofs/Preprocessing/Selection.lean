import ShaderEffect.Proofs.Preprocessing.Texts

namespace ShaderEffect.Preprocessor

open Token (Cursor IsWhole)

variable {α : Type} {e : Setting} {text rest line tail : List Char} {serial fuel : Nat}
  {σ σ' : Scope} {p p' : Preprocessor} {f : Token.Kind → Option (PreM α)} {a : α}

/-- Behind a directive a line starts. -/
theorem directive_column (hf : IsReader f) (h : e.directive fuel f σ line = some (a, σ')) :
    σ'.location.column = 1 := by
  obtain ⟨hwhole, run, q, hrun, hvalue, hend, -⟩ := directive_eq_some h
  have hline := lineValue_local fuel hf hrun (alone e (line ++ ['\n']))
  have hsound := (hline.embed hvalue (state_sound hwhole rfl rfl) (onLine_of_lineEnd hend)).1
  obtain ⟨-, -, b, hb, hname, hnewline, -, hlocation⟩ := lineEnd?_eq_some hend
  rw [← hlocation]
  exact ((hsound.placed b hb hname).newline hnewline).2

theorem text_opens (h : IsText line) (hcolumn : σ.location.column = 1) : Opens σ line := by
  obtain ⟨r, hr, -⟩ :=
    tokens_plain (c := Setting.cursor σ line) (line.length + 1) h rfl hcolumn (Nat.lt_succ_self _)
  exact ⟨isWhole_of_text h, next_of_tokens hr⟩

/-- What is known of a line that is left out. -/
theorem leftOut_eq_some (h : leftOut σ line = some σ') :
    IsWhole (line ++ ['\n']) ∧ ∃ r, tokens (line.length + 1) (Setting.cursor σ line) = some r
      ∧ (∀ t ∈ r.1, isPassed t = true) ∧ σ' = { σ with location := r.2.2.location } := by
  unfold leftOut at h
  split at h
  · cases h
  · obtain ⟨r, hr, h⟩ := Option.bind_eq_some_iff.mp h
    split at h
    · obtain ⟨-, hpassed⟩ := ‹_ ∧ _›
      exact ⟨isWhole_of_notContinued ‹_›, r, hr, List.all_eq_true.mp hpassed,
        (Option.some.inj h).symm⟩
    · cases h

theorem leftOut_opens (h : leftOut σ line = some σ') : Opens σ line := by
  obtain ⟨hwhole, r, hr, -⟩ := leftOut_eq_some h
  exact ⟨hwhole, next_of_tokens hr⟩

theorem leftOut_column (h : leftOut σ line = some σ') : σ'.location.column = 1 := by
  obtain ⟨hwhole, r, hr, -, rfl⟩ := leftOut_eq_some h
  exact (tokens_ends hwhole hr).2.2.1

variable {s : Section} {active taken holds : Bool} {r : List (Int × String) × Scope}

theorem select_text {rest : Section}
    (h : (Section.text line rest).select e fuel active σ = some r) :
    IsText line ∧ (active = true → hasNoMacro σ line = true) ∧
      ∃ s, rest.select e fuel active { σ with location := σ.location.nextLine } = some s ∧
        r = ((if active then textLine σ line else []) ++ s.1, s.2) := by
  rw [Section.select] at h
  split at h
  · obtain ⟨htext, hfree⟩ := ‹_ ∧ _›
    obtain ⟨s, hs, rfl⟩ := Option.map_eq_some_iff.mp h
    exact ⟨htext, hfree, s, hs, rfl⟩
  · cases h

/-- Whether a line that changes macros is valid, given what it leaves to the next line. -/
def Changes (e : Setting) (fuel : Nat) (active : Bool) (σ : Scope) (line : List Char)
    (σ' : Scope) : Prop :=
  if active then e.directive fuel (change? fuel) σ line = some ((), σ')
    else leftOut σ line = some σ'

theorem select_change {rest : Section}
    (h : (Section.change line rest).select e fuel active σ = some r) :
    ∃ σ', Changes e fuel active σ line σ' ∧ rest.select e fuel active σ' = some r := by
  rw [Section.select] at h
  obtain ⟨σ', hσ', hrest⟩ := Option.bind_eq_some_iff.mp h
  refine ⟨σ', ?_, hrest⟩
  unfold Changes
  split at hσ' <;> rename_i hactive
  · obtain ⟨u, hu, rfl⟩ := Option.map_eq_some_iff.mp hσ'
    rw [if_pos hactive]
    exact hu
  · rw [if_neg hactive]
    exact hσ'

theorem select_group {body : Section} {more : Branches} {rest : Section}
    (h : (Section.group line body more rest).select e fuel active σ = some r) :
    ∃ holds σ₁ first others s,
      e.directive fuel (opening? fuel) σ line = some (holds, σ₁) ∧
      body.select e fuel (active && holds) σ₁ = some first
        ∧ more.select e fuel active holds first.2 = some others ∧
      rest.select e fuel active others.2 = some s ∧ r = (first.1 ++ others.1 ++ s.1, s.2) := by
  rw [Section.select] at h
  obtain ⟨d, hd, h⟩ := Option.bind_eq_some_iff.mp h
  obtain ⟨first, hfirst, h⟩ := Option.bind_eq_some_iff.mp h
  obtain ⟨others, hothers, h⟩ := Option.bind_eq_some_iff.mp h
  obtain ⟨s, hs, rfl⟩ := Option.map_eq_some_iff.mp h
  exact ⟨d.1, d.2, first, others, s, hd, hfirst, hothers, hs, rfl⟩

theorem select_endif (h : (Branches.endif line).select e fuel active taken σ = some r) :
    e.directive fuel (only .hashEndif (pure ())) σ line = some ((), r.2) ∧ r.1 = [] := by
  rw [Branches.select] at h
  obtain ⟨d, hd, rfl⟩ := Option.map_eq_some_iff.mp h
  exact ⟨hd, rfl⟩

theorem select_elif {body : Section} {more : Branches}
    (h : (Branches.elif line body more).select e fuel active taken σ = some r) :
    ∃ holds σ₁ branch others,
      e.directive fuel (only .hashElif (evaluateCondition fuel)) σ line = some (holds, σ₁) ∧
      body.select e fuel (active && !taken && holds) σ₁ = some branch ∧
      more.select e fuel active (taken || holds) branch.2 = some others
        ∧ r = (branch.1 ++ others.1, others.2) := by
  rw [Branches.select] at h
  obtain ⟨d, hd, h⟩ := Option.bind_eq_some_iff.mp h
  obtain ⟨branch, hbranch, h⟩ := Option.bind_eq_some_iff.mp h
  obtain ⟨others, hothers, rfl⟩ := Option.map_eq_some_iff.mp h
  exact ⟨d.1, d.2, branch, others, hd, hbranch, hothers, rfl⟩

theorem select_otherwise {body : Section} {last : List Char}
    (h : (Branches.otherwise line body last).select e fuel active taken σ = some r) :
    ∃ σ₁ branch, e.directive fuel (only .hashElse (pure ())) σ line = some ((), σ₁) ∧
      body.select e fuel (active && !taken) σ₁ = some branch ∧
      e.directive fuel (only .hashEndif (pure ())) branch.2 last = some ((), r.2)
        ∧ r.1 = branch.1 := by
  rw [Branches.select] at h
  obtain ⟨d, hd, h⟩ := Option.bind_eq_some_iff.mp h
  obtain ⟨branch, hbranch, h⟩ := Option.bind_eq_some_iff.mp h
  obtain ⟨d', hd', rfl⟩ := Option.map_eq_some_iff.mp h
  exact ⟨d.2, branch, hd, hbranch, hd', rfl⟩

theorem isReader_elif :
    IsReader (only .hashElif (evaluateCondition fuel)) := isReader_only Token.Kind.noConfusion

theorem isReader_else : IsReader (only .hashElse (pure ())) := isReader_only Token.Kind.noConfusion

theorem isReader_endif :
    IsReader (only .hashEndif (pure ())) := isReader_only Token.Kind.noConfusion

theorem Changes.opens (h : Changes e fuel active σ line σ') : Opens σ line := by
  unfold Changes at h
  split at h
  · exact directive_opens isReader_change h
  · exact leftOut_opens h

theorem Changes.column (h : Changes e fuel active σ line σ') : σ'.location.column = 1 := by
  unfold Changes at h
  split at h
  · exact directive_column isReader_change h
  · exact leftOut_column h

/-- A section starts a line, unless it is empty. -/
theorem Section.begins (h : s.select e fuel active σ = some r) (hcolumn : σ.location.column = 1)
    (htail : tail ≠ [] → Begins r.2 tail) (hne : s.source ++ tail ≠ []) :
    Begins σ (s.source ++ tail) := by
  cases s with
  | nil =>
    obtain rfl := Option.some.inj h
    exact htail hne
  | text line rest =>
    rw [Section.source, List.append_assoc, List.cons_append]
    exact (text_opens (select_text h).1 hcolumn).begins
  | change line rest =>
    obtain ⟨σ', hchange, -⟩ := select_change h
    rw [Section.source, List.append_assoc, List.cons_append]
    exact hchange.opens.begins
  | group line body more rest =>
    obtain ⟨holds, σ₁, first, others, s, hd, -⟩ := select_group h
    rw [Section.source, List.append_assoc, List.cons_append]
    exact (directive_opens isReader_opening hd).begins

/-- The branches behind the first one start with a line. -/
theorem Branches.begins {b : Branches} (h : b.select e fuel active taken σ = some r) :
    Begins σ (b.source ++ tail) := by
  cases b with
  | endif line =>
    rw [Branches.source, List.append_assoc]
    exact (directive_opens isReader_endif (select_endif h).1).begins
  | elif line body more =>
    obtain ⟨holds, σ₁, branch, others, hd, -⟩ := select_elif h
    rw [Branches.source, List.append_assoc, List.cons_append]
    exact (directive_opens isReader_elif hd).begins
  | otherwise line body last =>
    obtain ⟨σ₁, branch, hd, -⟩ := select_otherwise h
    rw [Branches.source, List.append_assoc, List.cons_append]
    exact (directive_opens isReader_else hd).begins

theorem Branches.source_ne_nil (b : Branches) : b.source ++ tail ≠ [] := by
  cases b <;> simp [Branches.source]

/-- Behind a group a line starts. -/
theorem Branches.column :
    ∀ (b : Branches) {taken : Bool} {σ : Scope} {r : List (Int × String) × Scope},
    b.select e fuel active taken σ = some r → r.2.location.column = 1
  | .endif line, _, _, _, h => directive_column isReader_endif (select_endif h).1
  | .elif line body more, _, _, _, h => by
    obtain ⟨holds, σ₁, branch, others, -, -, hothers, rfl⟩ := select_elif h
    show others.2.location.column = 1
    exact more.column hothers
  | .otherwise line body last, _, _, _, h => by
    obtain ⟨σ₁, branch, -, -, hlast, -⟩ := select_otherwise h
    exact directive_column isReader_endif hlast

theorem Changes.reached (h : Changes e fuel active σ line σ')
    (hp : Ahead e text serial σ (line ++ '\n' :: rest) p) (hactive : isActive p.groups = active)
    (hbegins : rest ≠ [] → Begins σ' rest) (hends : rest = [] → p.groups = []) :
    ∃ p', Reached fuel (line.length + 1) e text serial σ' rest [] p p'
      ∧ p'.groups = p.groups := by
  unfold Changes at h
  split at h
  · obtain ⟨p', hreached, hgroups⟩ := change_reached hp h (hactive.trans ‹_›) hbegins hends
    exact ⟨p', hreached.mono (Nat.succ_le_succ (Nat.zero_le _)), hgroups⟩
  · obtain ⟨hwhole, r, hr, hpassed, rfl⟩ := leftOut_eq_some h
    exact passed_reached hp hwhole hr (hactive.trans (Bool.eq_false_of_not_eq_true ‹_›))
      hpassed hbegins hends

/-- A line of text is written where it is selected. -/
theorem text_line_reached (hfuel : 0 < fuel) (hp : Ahead e text serial σ (line ++ '\n' :: rest) p)
    (htext : IsText line) (hfree : active = true → hasNoMacro σ line = true)
    (hactive : isActive p.groups = active)
    (hbegins : rest ≠ [] → Begins { σ with location := σ.location.nextLine } rest)
    (hends : rest = [] → p.groups = []) :
    ∃ p', Reached fuel (line.length + 1) e text serial
      { σ with location := σ.location.nextLine } rest
        (if active then textLine σ line else []) p p' ∧ p'.groups = p.groups := by
  cases active with
  | true =>
    rw [if_pos rfl]
    exact text_reached hfuel hp htext hactive (hfree rfl) hbegins hends
  | false =>
    rw [if_neg Bool.false_ne_true]
    obtain ⟨r, hr, hspelled⟩ :=
      tokens_plain (c := Setting.cursor σ line) (line.length + 1) htext rfl hp.column
        (Nat.lt_succ_self _)
    have hstop : r.2.2.location = σ.location.nextLine := by
      rw [hspelled.stop]
      rfl
    have hpassed : ∀ t ∈ r.1, isPassed t = true := by
      have hkinds : ∀ kind ∈ writtenKinds,
          kind ∉ conditionalKinds ∧ kind ≠ .stringLiteral := by decide
      intro t ht
      obtain ⟨hkind, hstring⟩ := hkinds t.kind (hspelled.kinds t ht)
      simp [isPassed, hkind, hstring]
    rw [← hstop] at hbegins ⊢
    exact passed_reached hp (isWhole_of_text htext) hr hactive hpassed hbegins hends

theorem isActive_opened {t : Token} {groups : List Group} :
    isActive (opened t holds groups) = (isActive groups && holds) :=
  Bool.not_not _

theorem isActive_branch {t : Token} {outer : List Group} {skipping : Bool} :
    isActive (branch t taken skipping outer) = !skipping := rfl

mutual

/-- Of a section what is selected is written, and the groups around it stay open. -/
theorem Section.reached (hfuel : 0 < fuel) :
    ∀ (s : Section) {active : Bool} {σ : Scope} {r : List (Int × String) × Scope}
    {tail : List Char} {p : Preprocessor}, s.select e fuel active σ = some r →
    Ahead e text serial σ (s.source ++ tail) p →
      isActive p.groups = active → (tail ≠ [] → Begins r.2 tail) →
    (tail = [] → p.groups = []) →
    ∃ p', Reached fuel s.source.length e text serial r.2 tail r.1 p p' ∧ p'.groups = p.groups
  -- By induction over the section. Behind each of its parts the preprocessor stands in front of
  -- the next, with the groups open that were open around the section.
  | .nil, _, _, _, _, p, h, hp, _, _, _ => by
    obtain rfl := Option.some.inj h
    exact ⟨p, ⟨Passes.refl, hp, (String.append_empty).symm, rfl⟩, rfl⟩
  | .text line rest, active, σ, r, tail, p, h, hp, hactive, hbegins, hends => by
    obtain ⟨htext, hfree, s, hs, rfl⟩ := select_text h
    rw [Section.source, List.append_assoc, List.cons_append] at hp
    obtain ⟨p₁, hline, hgroups⟩ :=
      text_line_reached hfuel hp htext hfree hactive (Section.begins hs rfl hbegins)
        fun hnil => hends (List.append_eq_nil_iff.mp hnil).2
    obtain ⟨p', hrest, hgroups'⟩ :=
      rest.reached hfuel hs hline.ahead (hgroups ▸ hactive) hbegins
        fun hnil => hgroups.trans (hends hnil)
    refine ⟨p', (hline.trans hrest).mono (le_of_eq ?_), hgroups'.trans hgroups⟩
    rw [Section.source, List.length_append, List.length_cons, Nat.add_assoc, Nat.add_comm 1]
  | .change line rest, active, σ, r, tail, p, h, hp, hactive, hbegins, hends => by
    obtain ⟨σ₁, hchange, hs⟩ := select_change h
    rw [Section.source, List.append_assoc, List.cons_append] at hp
    obtain ⟨p₁, hline, hgroups⟩ :=
      hchange.reached hp hactive (Section.begins hs hchange.column hbegins)
        fun hnil => hends (List.append_eq_nil_iff.mp hnil).2
    obtain ⟨p', hrest, hgroups'⟩ :=
      rest.reached hfuel hs hline.ahead (hgroups ▸ hactive) hbegins
        fun hnil => hgroups.trans (hends hnil)
    refine ⟨p', (hline.trans hrest).mono (le_of_eq ?_), hgroups'.trans hgroups⟩
    rw [Section.source, List.length_append, List.length_cons, Nat.add_assoc, Nat.add_comm 1]
  | .group line body more rest, active, σ, r, tail, p, h, hp, hactive, hbegins, hends => by
    obtain ⟨holds, σ₁, first, others, s, hd, hbody, hmore, hs, rfl⟩ := select_group h
    rw [Section.source, List.append_assoc, List.cons_append, List.append_assoc,
      List.append_assoc] at hp
    have hmore_ne : more.source ++ (rest.source ++ tail) ≠ [] := more.source_ne_nil
    have hbody_ne : body.source ++ (more.source ++ (rest.source ++ tail)) ≠ [] :=
      List.append_ne_nil_of_right_ne_nil _ hmore_ne
    obtain ⟨p₁, t, hopen, hgroups₁, hkind⟩ := opening_reached hp hd hbody_ne
      (Section.begins hbody (directive_column isReader_opening hd)
        (fun _ => Branches.begins hmore) hbody_ne)
    obtain ⟨p₂, hfirst, hgroups₂⟩ :=
      body.reached hfuel hbody hopen.ahead (by rw [hgroups₁, isActive_opened, hactive])
        (fun _ => Branches.begins hmore) fun hnil => absurd hnil hmore_ne
    obtain ⟨p₃, hothers, hgroups₃⟩ :=
      more.reached hfuel hmore hfirst.ahead (hgroups₂.trans hgroups₁) rfl hkind hactive
        (Section.begins hs (more.column hmore) hbegins)
        fun hnil => hends (List.append_eq_nil_iff.mp hnil).2
    obtain ⟨p', hrest, hgroups₄⟩ :=
      rest.reached hfuel hs hothers.ahead (hgroups₃ ▸ hactive) hbegins
        fun hnil => hgroups₃.trans (hends hnil)
    refine ⟨p', ?_, hgroups₄.trans hgroups₃⟩
    rw [List.append_assoc]
    refine (hopen.trans (hfirst.trans (hothers.trans hrest))).mono ?_
    simp only [Section.source, List.length_append, List.length_cons]
    omega

/-- Of the branches behind the first one what is selected is written, and the group is closed. -/
theorem Branches.reached (hfuel : 0 < fuel) : ∀ (b : Branches) {active taken : Bool} {σ : Scope}
    {r : List (Int × String) × Scope} {tail : List Char} {p : Preprocessor} {g : Group}
    {outer : List Group},
    b.select e fuel active taken σ = some r →
      Ahead e text serial σ (b.source ++ tail) p → p.groups = g :: outer →
    g.taken = taken → g.directive.kind ≠ .hashElse →
      isActive outer = active → (tail ≠ [] → Begins r.2 tail) →
    (tail = [] → outer = []) →
    ∃ p', Reached fuel b.source.length e text serial r.2 tail r.1 p p' ∧ p'.groups = outer
  -- By induction over the branches. The group on top records whether one of the branches before
  -- was taken, which is what the selection carries along as `taken`.
  | .endif line, _, _, _, _, _, _, _, _, h, hp, hgroups, _, _, _, hbegins, hends => by
    obtain ⟨hd, hr⟩ := select_endif h
    rw [Branches.source, List.append_assoc, List.singleton_append] at hp
    obtain ⟨p', hend, hgroups'⟩ := endif_reached hp hd hbegins hends hgroups
    refine ⟨p', ?_, hgroups'⟩
    rw [hr, Branches.source, List.length_append]
    exact hend.mono (Nat.le_add_left 1 _)
  | .elif line body more, active, taken, σ, r, tail, p, g, outer, h, hp, hgroups, htaken, hkind,
    hactive, hbegins, hends => by
    obtain ⟨holds, σ₁, branch, others, hd, hbody, hmore, rfl⟩ := select_elif h
    rw [Branches.source, List.append_assoc, List.cons_append, List.append_assoc] at hp
    have hmore_ne : more.source ++ tail ≠ [] := more.source_ne_nil
    have hbody_ne : body.source ++ (more.source ++ tail) ≠ [] :=
      List.append_ne_nil_of_right_ne_nil _ hmore_ne
    obtain ⟨p₁, t, hnext, hkind₁, hgroups₁⟩ := elif_reached hp hd hbody_ne
      (Section.begins hbody (directive_column isReader_elif hd) (fun _ => Branches.begins hmore)
        hbody_ne) hgroups hkind
    obtain ⟨p₂, hbranch, hgroups₂⟩ := body.reached hfuel hbody hnext.ahead
      (by rw [hgroups₁, isActive_branch, Bool.not_not, hactive, htaken])
      (fun _ => Branches.begins hmore) fun hnil => absurd hnil hmore_ne
    obtain ⟨p', hothers, hgroups₃⟩ :=
      more.reached hfuel hmore hbranch.ahead (hgroups₂.trans hgroups₁)
        (congrArg (· || holds) htaken) hkind₁ hactive hbegins hends
    refine ⟨p', (hnext.trans (hbranch.trans hothers)).mono ?_, hgroups₃⟩
    simp only [Branches.source, List.length_append, List.length_cons]
    omega
  | .otherwise line body last, active, taken, σ, r, tail, p, g, outer, h, hp, hgroups, htaken,
    hkind, hactive, hbegins, hends => by
    obtain ⟨σ₁, branch, hd, hbody, hlast, hr⟩ := select_otherwise h
    rw [Branches.source, List.append_assoc, List.cons_append, List.append_assoc, List.append_assoc,
      List.singleton_append] at hp
    have hlast_ne : last ++ '\n' :: tail ≠ [] :=
      List.append_ne_nil_of_right_ne_nil _ (List.cons_ne_nil _ _)
    have hbody_ne : body.source ++ (last ++ '\n' :: tail) ≠ [] :=
      List.append_ne_nil_of_right_ne_nil _ hlast_ne
    have hends' : Begins branch.2 (last ++ '\n' :: tail) :=
      (directive_opens isReader_endif hlast).begins
    obtain ⟨p₁, t, hnext, hgroups₁⟩ := else_reached hp hd hbody_ne
      (Section.begins hbody (directive_column isReader_else hd) (fun _ => hends') hbody_ne) hgroups
      hkind
    obtain ⟨p₂, hbranch, hgroups₂⟩ := body.reached hfuel hbody hnext.ahead
      (by rw [hgroups₁, isActive_branch, Bool.not_not, hactive, htaken]) (fun _ => hends')
      fun hnil => absurd hnil hlast_ne
    obtain ⟨p', hend, hgroups₃⟩ :=
      endif_reached hbranch.ahead hlast hbegins hends (hgroups₂.trans hgroups₁)
    refine ⟨p', ?_, hgroups₃⟩
    rw [hr, ← List.append_nil branch.1]
    refine (hnext.trans (hbranch.trans hend)).mono ?_
    simp only [Branches.source, List.length_append, List.length_cons, List.length_nil]
    omega

end

/-- Whether nothing is being read. -/
structure IsIdle (p : Preprocessor) : Prop where
  stack : p.stack = []
  groups : p.groups = []
  overflow : p.overflow = false

/-- The place where a source of a name starts. -/
def firstPlace (name : String) : Location where
  source := name
  line := 1
  column := 1

/-- The input for a file before anything of it is read. -/
def fileInput (p : Preprocessor) (text name : String) : Input where
  name := name
  isArgument := false
  text := text.toList
  cursor := Cursor.start text (firstPlace name)
  next := { kind := .unknown, location := firstPlace name }
  hidden := (p.stack.getLast?.map (·.hidden)).getD []
  serial := p.pushed

/-- The state in which a file is the only input. -/
def withFile (p : Preprocessor) (text name : String) : Preprocessor :=
  { p with stack := [fileInput p text name], nextLevel := 0, pushed := p.pushed + 1 }

theorem push_file {text name : String} (hstack : p.stack = []) (hname : name ≠ "") :
    push text name false p = (do let _ ← consume) (withFile p text name) := by
  have hstate : withFile p text name =
      { p with stack := p.stack ++ [fileInput p text name], nextLevel := p.stack.length,
               pushed := p.pushed + 1 } := by
    rw [withFile, hstack, List.nil_append, List.length_nil]
  unfold push
  simp only [if_pos hname]
  rw [hstate]
  rfl

/-- Where a file is entered, the output names it, unless it is in that file already. -/
theorem entered_withFile {text name : String} (hname : name ≠ "") :
    entered (withFile p text name) (fileInput p text name) =
      { withFile p text name with
        output := p.output ++ (if p.reached.source = name then "" else lineDirective 1 (some name))
        reached := if p.reached.source = name then p.reached
          else { source := name, line := 0 } } := by
  unfold entered
  by_cases hsame : p.reached.source = name
  · rw [if_neg (by simp [fileInput, withFile, hsame]), if_pos hsame, if_pos hsame,
      String.append_empty]
    rfl
  · have hnew : ((fileInput p text name).name ≠ ""
        && (fileInput p text name).name ≠ (withFile p text name).reached.source) = true := by
      simp [fileInput, withFile, hname, Ne.symm hsame]
    rw [if_pos hnew, if_neg hsame, if_neg hsame]
    rfl

/-- The state in which the first token of a file is read next. -/
theorem push_ahead (text : String) {name : String} (hp : IsIdle p) (hsuccess : p.success = true)
    (hname : name ≠ "") (hne : text.toList ≠ [])
    (hbegins : Begins { macros := p.macros, location := firstPlace name } text.toList) :
    ∃ p', push text name false p = .ok ((), p')
      ∧ Ahead ⟨p.files, p.includePaths, name⟩ text.toList p.pushed
        { macros := p.macros, location := firstPlace name } text.toList p'
        ∧ p'.groups = []
        ∧ p'.output = p.output
          ++ (if p.reached.source = name then "" else lineDirective 1 (some name))
          ∧ p'.reached.line = if p.reached.source = name then p.reached.line else 0 := by
  have hplace : place text.toList { macros := p.macros, location := firstPlace name } text.toList =
      Cursor.start text (firstPlace name) := by
    rw [place, Nat.sub_self]
    rfl
  have hentered : entered (withFile p text name) (fileInput p text name) = _ :=
    entered_withFile hname
  refine ⟨advanced (entered (withFile p text name) (fileInput p text name))
    (fileInput p text name), ?_, ?_, ?_, ?_, ?_⟩
  · rw [push_file hp.stack hname]
    refine bind_eq_ok.mpr ⟨true, _, ?_, rfl⟩
    have hget : (withFile p text name).stack[(withFile p text name).nextLevel]?
        = some (fileInput p text name) := rfl
    rw [consume_of_some hget]
    exact popFinished_zero_of_next (hentered ▸ hbegins 0)
  · rw [hentered]
    refine ⟨?_, rfl, rfl, hsuccess, hp.overflow, Nat.lt_succ_self _, ?_, rfl, List.suffix_refl _,
      ?_, fun _ => hbegins, fun hnil => absurd hnil hne⟩
    · show (⟨p.files, p.includePaths, (if _ then _ else _ : Location).source⟩ : Setting) = _
      split <;> simp [*]
    · show ∀ g ∈ p.groups, g.level = 0
      rw [hp.groups]
      exact List.forall_mem_nil _
    · rw [if_neg hne, Setting.input, hplace]
      simp [advanced, withFile, fileInput, hp.stack]
  · rw [hentered]
    exact hp.groups
  · rw [hentered]
    rfl
  · rw [hentered]
    show (if _ then _ else _ : Location).line = _
    split <;> rfl

/-- The text that is read for a source: its last line ends with a newline. -/
def terminated (source : String) : String :=
  if Text.endsWith "\n" source then source else source ++ "\n"

theorem terminated_ne_nil (source : String) : (terminated source).toList ≠ [] := by
  unfold terminated
  split
  · rename_i h
    rintro hnil
    rw [Text.endsWith, hnil] at h
    exact absurd h (by decide)
  · simp

/-- The name that a source gets. -/
def sourceName (name : String) : String :=
  if name = "" then "unknown" else name

theorem sourceName_ne_empty (name : String) : sourceName name ≠ "" := by
  unfold sourceName
  split
  · decide
  · assumption

/-- The scope in which the first line of a source is read. -/
def firstScope (p : Preprocessor) (name : String) : Scope where
  macros := p.macros
  location := firstPlace (sourceName name)

/-- Of a source that is a section the output is what is selected of the section. -/
theorem appendString_select {s : Section} {source name : String} {lines : List (Int × String)}
    (hidle : IsIdle p) (hsource : (terminated source).toList = s.source)
    (hfuel : s.source.length < fuel)
    (h : s.select ⟨p.files, p.includePaths, sourceName name⟩ fuel true (firstScope p name)
      = some (lines, σ)) :
    ∃ p', appendString fuel source name p = .ok (true, p') ∧ p'.macros = σ.macros ∧
      p'.output = p.output
        ++ (if p.reached.source = sourceName name then ""
          else lineDirective 1 (some (sourceName name))) ++
        rendered (if p.reached.source = sourceName name then p.reached.line else 0) lines := by
  have hne : s.source ≠ [] := hsource ▸ terminated_ne_nil source
  have hbegins : Begins (firstScope p name) s.source := by
    have hstart : Begins (firstScope p name) (s.source ++ []) :=
      Section.begins h rfl (fun hnil => absurd rfl hnil) (by rwa [List.append_nil])
    rwa [List.append_nil] at hstart
  obtain ⟨p₁, hpush, hahead, hgroups, houtput, hline⟩ :=
    push_ahead (p := { p with success := true }) (terminated source) ⟨hidle.stack, hidle.groups,
      hidle.overflow⟩ rfl (sourceName_ne_empty name) (hsource ▸ hne) (hsource ▸ hbegins)
  rw [hsource] at hahead
  obtain ⟨p', hreached, hgroups'⟩ :=
    s.reached (Nat.zero_lt_of_lt hfuel) h (by rwa [List.append_nil]) (by rw [hgroups]; rfl)
      (fun hnil => absurd rfl hnil) fun _ => hgroups
  -- Nothing is left to read.
  have hstack : p'.stack = [] := by rw [hreached.ahead.stack, if_pos rfl]
  have hend : Runs fuel 1 "" p' { p' with level := p'.nextLevel } :=
    runs_succ.mpr (.inr ⟨"", _, bind_eq_ok.mpr ⟨false, _, consume_of_nil hstack, rfl⟩, rfl⟩)
  have hruns : processAll fuel p₁ = .ok ((), { p' with level := p'.nextLevel }) :=
    (hreached.passes 1 _ hend).mono (by omega)
  refine ⟨{ p' with level := p'.nextLevel }, ?_, hreached.ahead.macros, ?_⟩
  · refine bind_eq_ok.mpr ⟨(), _, modify_eq_ok.mpr rfl,
      bind_eq_ok.mpr ⟨(), _, hpush, bind_eq_ok.mpr ⟨(), _, hruns, ?_⟩⟩⟩
    exact bind_eq_ok.mpr ⟨_, _, get_eq_ok.mpr ⟨rfl, rfl⟩,
      pure_eq_ok.mpr ⟨hreached.ahead.success, rfl⟩⟩
  · show p'.output = _
    rw [hreached.output, houtput, hline]

/-- A section with a branch of each kind, one of them in a branch that is left out. -/
def nestedSection : Section :=
  .change "#define A 1".toList <| .text "first".toList <|
    .group "#if A == 2".toList (.text "second".toList <|
      .group "#ifdef A".toList (.text "third".toList .nil)
      (.endif "#endif".toList) .nil)
      (.elif "#elif defined(A)".toList (.change "#undef A".toList <|
        .text " fourth line ".toList .nil) <|
        .otherwise "#else".toList (.text "fifth".toList .nil) "#endif".toList) <|
    .group "#ifndef A".toList (.text "sixth".toList .nil) (.endif "#endif".toList) .nil

theorem appendString_select_nested :
    ∃ p', appendString 300 (String.ofList nestedSection.source) "m" {} = .ok (true, p')
      ∧ p'.macros = [] ∧ p'.output
        = "#line 1 \"m\"\n#line 2\nfirst\n#line 10\nfourth line\n#line 15\nsixth\n" := by
  have hsource : (terminated (String.ofList nestedSection.source)).toList
      = nestedSection.source := by decide +kernel
  have hfuel : nestedSection.source.length < 300 := by decide +kernel
  have hselect : nestedSection.select ⟨{}, [], sourceName "m"⟩ 300 true (firstScope {} "m") =
      some ([(2, "first"), (10, "fourth line"), (15, "sixth")], ⟨[], ⟨"m", 17, 1⟩⟩) := by
        decide +kernel
  exact appendString_select ⟨rfl, rfl, rfl⟩ hsource hfuel hselect

/-- A macro that is defined twice is an error. -/
theorem appendString_redefinition :
    (Section.change "#define A 1".toList (.change "#define A 2".toList .nil)).source
      = "#define A 1\n#define A 2\n".toList ∧
      (appendString 100 "#define A 1\n#define A 2\n" "m" {}).toOption.map (·.1) = some false := by
  decide +kernel

end ShaderEffect.Preprocessor
