import ShaderEffect.Proofs.Source.Tally

namespace ShaderEffect

open Source

namespace Source.Lines

variable {n : Nat} {ls ms ns : Lines}

/-- Whether some lines stand in others in one piece, however deep. -/
def Within (ls ms : Lines) : Prop :=
  ∃ n, deeper n ls <:+: ms

theorem within_rfl : ls.Within ls :=
  ⟨0, by rw [deeper_zero]⟩

theorem Within.mono (h : ls.Within ms) (hms : ms <:+: ns) : ls.Within ns := by
  obtain ⟨n, hls⟩ := h
  exact ⟨n, hls.trans hms⟩

/-- What stands in a part of a construct stands in the construct. -/
theorem Within.of_deeper (h : ls.Within ms) (hms : deeper n ms <:+: ns) : ls.Within ns := by
  obtain ⟨m, hls⟩ := h
  have hdeeper : deeper n (deeper m ls) <:+: deeper n ms := hls.map (Line.deeper n)
  rw [deeper_deeper] at hdeeper
  exact ⟨m + n, hdeeper.trans hms⟩

end Source.Lines

section Constructs

variable {bare : Bool} {header yes no test body next first last : Lines}
  {sections : List (Labels × Lines)} {s : Labels × Lines} {value : UInt32}

theorem infix_yes : yes.deeper 1 <:+: ifText header yes no :=
  ⟨header ++ [Line.text 1 "\x7b"],
    .text 1 "\x7d" :: if no.isEmpty then [] else .text 1 "else" :: braced (no.deeper 1),
    by simp [ifText, braced]⟩

/-- Nothing stands in a branch that is left out. -/
theorem infix_no : no.deeper 1 <:+: ifText header yes no := by
  cases no with
  | nil => exact List.nil_infix
  | cons line rest =>
    exact ⟨header ++ braced (yes.deeper 1) ++ [Line.text 1 "else", Line.text 1 "\x7b"],
      [.text 1 "\x7d"], by
      simp [ifText, braced]⟩

theorem infix_loopBraces : body.deeper 2 <:+: loopBraces first body last :=
  ⟨Line.text 1 "\x7b" :: first ++ [Line.text 2 "\x7b"],
    Line.text 2 "\x7d" :: last.deeper 1 ++ [Line.text 1 "\x7d"], by
    simp [loopBraces, braced]⟩

theorem Looping.infix_whileLines {l : Looping Note} :
    body.deeper 2 <:+: l.whileLines test body next := by
  unfold whileLines
  split
  · exact infix_loopBraces.trans ((List.suffix_cons _ _).trans (List.suffix_append _ _)).isInfix
  · exact infix_loopBraces.trans ((List.suffix_cons _ _).trans (List.suffix_append _ _)).isInfix

theorem Looping.infix_doLines {l : Looping Note} : body.deeper 2 <:+: l.doLines bare body next := by
  have hbraces : body.deeper 2 <:+: .text 1 "do" :: loopBraces [] body (l.repeated bare next) :=
    infix_loopBraces.trans (List.suffix_cons _ _).isInfix
  unfold doLines
  exact ((hbraces.trans (List.suffix_append _ _).isInfix).trans
    (List.prefix_append _ _).isInfix).trans (List.suffix_append _ _).isInfix

/-- The sections that are written are those that have a label. -/
theorem mem_listed : s ∈ listed sections ↔ s ∈ sections ∧ s.1.isListed = true := by
  simp only [listed, Labels.isListed, List.mem_append, List.mem_filter, decide_eq_true_eq]
  tauto

theorem infix_switchText (hs : s ∈ sections) (hlisted : s.1.isListed = true) :
    s.2.deeper 1 <:+: switchText header (sectionTexts sections) := by
  have hsection : s.2.deeper 1 <:+: sectionText (labelText s.1) s.2 :=
    ⟨[.text 1 (labelText s.1 ++ "\x7b")], [.text 1 "\x7d"], rfl⟩
  have hmem : sectionText (labelText s.1) s.2 ∈ sectionTexts sections :=
    List.mem_map.mpr ⟨s, mem_listed.mpr ⟨hs, hlisted⟩, rfl⟩
  have hflatten : (sectionTexts sections).flatten <:+: switchText header (sectionTexts sections) :=
    ⟨header ++ [Line.text 1 "\x7b"], [.text 1 "\x7d"], by simp [switchText]⟩
  exact (hsection.trans (List.infix_of_mem_flatten hmem)).trans hflatten

/-- What is known of sections by the values of their labels is known of those that are written. -/
theorem filter_listed :
    (listed sections).filter (value ∈ ·.1.literals)
      = sections.filter (value ∈ ·.1.literals) := by
  have hsome : (sections.filter (·.1.literals ≠ [])).filter (value ∈ ·.1.literals)
      = sections.filter (value ∈ ·.1.literals) := by
    rw [List.filter_filter]
    refine List.filter_congr fun t _ => ?_
    by_cases ht : value ∈ t.1.literals
    · simp [ht, List.ne_nil_of_mem ht]
    · simp [ht]
  have hnone :
      (sections.filter fun s => s.1.literals = [] ∧ s.1.isDefault).filter (value
        ∈ ·.1.literals) = [] := by
    rw [List.filter_filter]
    refine List.filter_eq_nil_iff.mpr fun t _ => ?_
    by_cases ht : t.1.literals = []
    · simp [ht]
    · simp [ht]
  rw [listed, List.filter_append, hsome, hnone, List.append_nil]

/-- A value belongs to one section, if no value stands on two labels. -/
theorem filter_literals (hnodup : ((sections.map (·.1)).flatMap (·.literals)).Nodup)
    (hs : s ∈ sections) (hvalue : value ∈ s.1.literals) :
    sections.filter (value ∈ ·.1.literals) = [s] := by
  induction sections with
  | nil => cases hs
  | cons t sections ih =>
    rw [List.map_cons, List.flatMap_cons, List.nodup_append] at hnodup
    -- The values of the first section are none of those behind it.
    obtain ⟨-, hrest, hdisjoint⟩ := hnodup
    have hmem {u : Labels × Lines} (hu : u ∈ sections) (huvalue : value ∈ u.1.literals) :
        value ∈ (sections.map (·.1)).flatMap (·.literals) :=
      List.mem_flatMap.mpr ⟨u.1, List.mem_map_of_mem hu, huvalue⟩
    obtain rfl | hs := List.mem_cons.mp hs
    · have hnone : sections.filter (value ∈ ·.1.literals) = [] := by
        refine List.filter_eq_nil_iff.mpr fun u hu huvalue => ?_
        exact hdisjoint value hvalue value (hmem hu (of_decide_eq_true huvalue)) rfl
      rw [List.filter_cons_of_pos (by simpa using hvalue), hnone]
    · have hnot : value ∉ t.1.literals := fun ht => hdisjoint value ht value (hmem hs hvalue) rfl
      rw [List.filter_cons_of_neg (by simpa using hnot)]
      exact ih hrest hs

end Constructs

/-- Whether a line declares a value. -/
def Source.Line.Declares (id : Id) (l : Line) : Prop :=
  ∃ type suffix init, l.content = .declaration type id suffix init

section Conditions

variable {bare : Bool} {id : Id} {line : Line} {next : Lines}

theorem declares_of_initOf (h : (Lines.initOf? id line).isSome = true) : line.Declares id := by
  unfold Lines.initOf? at h
  split at h
  · rename_i hcontent
    split at h
    · rename_i heq
      exact heq ▸ ⟨_, _, _, hcontent⟩
    · cases h
  · cases h

theorem declares_of_isBare (h : Lines.isBare id line = true) : line.Declares id := by
  unfold Lines.isBare at h
  split at h
  · rename_i hcontent
    exact of_decide_eq_true h ▸ ⟨_, _, _, hcontent⟩
  · cases h

/-- Nothing but the condition moves to the line that opens a loop. -/
theorem Looping.opened_cases (l : Looping Note) (test : Lines) :
    l.opened test = [] ∨ ∃ line, l.opened test = [line] ∧ line.Declares l.condition := by
  unfold opened
  split
  · rename_i hsole
    match test with
    | [] => cases hsole
    | [line] => exact .inr ⟨line, rfl, declares_of_initOf hsole⟩
    | _ :: _ :: _ => cases hsole
  · exact .inl rfl

theorem Looping.declaration_declares {l : Looping Note} (h : l.declaration? bare next = some line) :
    line.Declares l.condition := by
  have hfound := List.find?_some h
  obtain hinit | hbare := (Bool.or_eq_true _ _).mp hfound
  · exact declares_of_initOf hinit
  · exact declares_of_isBare (Bool.and_eq_true_iff.mp hbare).2

/-- The condition of a loop. -/
def Part.condition? (p : Part) : Option Id :=
  match p.statement with
  | .forLoop l .. | .whileLoop l .. | .doLoop l .. => some l.condition
  | _ => none

/-- What moves is one line, which declares the condition of a loop. -/
theorem Part.moved_cases (bare : Bool) (p : Part) : p.moved bare = []
    ∨ ∃ id line, p.condition? = some id ∧ p.moved bare = [line] ∧ line.Declares id := by
  obtain ⟨again, t⟩ := p
  cases t with
  | forLoop l first start test step body =>
    obtain hnone | ⟨line, hline, hdeclares⟩ := l.opened_cases (test.elim [] Evaluation.lines)
    · exact .inl hnone
    · exact .inr ⟨_, line, rfl, hline, hdeclares⟩
  | whileLoop l first test body =>
    obtain hnone | ⟨line, hline, hdeclares⟩ := l.opened_cases test.lines
    · exact .inl hnone
    · exact .inr ⟨_, line, rfl, hline, hdeclares⟩
  | doLoop l body test =>
    have hmoved : Part.moved bare ⟨again, .doLoop l body test⟩
        = (l.declaration? bare test.lines).toList := rfl
    rw [hmoved]
    cases hline : l.declaration? bare test.lines with
    | none => exact .inl rfl
    | some line => exact .inr ⟨_, line, rfl, rfl, Looping.declaration_declares hline⟩
  | _ => exact .inl rfl

end Conditions

/-- Whether every value of the case labels of a switch statement stands once in front of one
section, the one that it leads to, and every section behind the first has a label. -/
structure Sections.Listed (bare : Bool) (again : Lines) (ss : Sections Note) : Prop where
  once : ∀ s ∈ ss.texts bare again, ∀ value ∈ s.1.literals, s.1.literals.count value = 1
    ∧ (listed (ss.texts bare again)).filter (value ∈ ·.1.literals) = [s]
  labelled : ∀ l ∈ ss.labels.tail, l.isListed = true

/-- Whether a switch statement lists its labels. -/
def Part.ListsLabels (bare : Bool) (p : Part) : Prop :=
  match p.statement with
  | .switch _ _ sections => sections.Listed bare p.again
  | _ => True

theorem Sections.listed_of_proper {merge defaultLabel : Id} {ss : Sections Note} (bare : Bool)
    (again : Lines) (h : Labels.Proper merge defaultLabel ss.labels) : ss.Listed bare again where
  once s hs value hvalue := by
    have hnodup := h.nodup
    have hlabels : (ss.texts bare again).map (·.1) = ss.labels := ss.labels_texts
    rw [← hlabels] at hnodup
    refine ⟨List.count_eq_one_of_mem ?_ hvalue,
      filter_listed.trans (filter_literals hnodup hs hvalue)⟩
    exact (List.nodup_flatMap.mp hnodup).1 s.1 (List.mem_map_of_mem hs)
  labelled l hl := by simpa [Labels.isListed] using h.labelled l hl

section Parts

variable {bare : Bool} {allowed : Evaluation Note → Prop}

mutual

/-- The text of a part of a statement stands in the text of the statement. -/
theorem Statement.within_text : (t : Statement Note) → ∀ again, ∀ p ∈ t.parts bare again,
    (p.statement.text bare p.again).Within (t.text bare again)
  | .nothing, _, _, hp | .evaluate .., _, _, hp => absurd hp List.not_mem_nil
  | .andThen x y, again, p, hp => by
    rw [Statement.text]
    obtain hp | hp := List.mem_append.mp hp
    · exact (x.within_text again p hp).mono (List.prefix_append _ _).isInfix
    · exact (y.within_text again p hp).mono (List.suffix_append _ _).isInfix
  | .nested body, again, p, hp => body.within_text again p hp
  | .leave value exit, again, p, hp => by
    obtain rfl := List.mem_singleton.mp hp
    exact Lines.within_rfl
  | .branch s test yes no, again, p, hp => by
    obtain rfl | hp := List.mem_cons.mp hp
    · exact Lines.within_rfl
    · have htext : ifText s.note.lines (yes.text bare again) (no.text bare again)
          <:+: (Statement.branch s test yes no).text bare again := (List.suffix_append _ _).isInfix
      obtain hp | hp := List.mem_append.mp hp
      · exact (yes.within_text again p hp).of_deeper (infix_yes.trans htext)
      · exact (no.within_text again p hp).of_deeper (infix_no.trans htext)
  | .switch d selector sections, again, p, hp => by
    obtain rfl | hp := List.mem_cons.mp hp
    · exact Lines.within_rfl
    · obtain ⟨s, hs, hlisted, hwithin⟩ := sections.within_texts again p hp
      exact hwithin.of_deeper ((infix_switchText hs hlisted).trans (List.suffix_append _ _).isInfix)
  | .forLoop l first start test step body, again, p, hp => by
    obtain rfl | hp := List.mem_cons.mp hp
    · exact Lines.within_rfl
    · exact (body.within_text step.lines p hp).of_deeper
        (Looping.infix_whileLines.trans (List.suffix_append _ _).isInfix)
  | .whileLoop l first test body, again, p, hp => by
    obtain rfl | hp := List.mem_cons.mp hp
    · exact Lines.within_rfl
    · exact (body.within_text [] p hp).of_deeper Looping.infix_whileLines
  | .doLoop l body test, again, p, hp => by
    obtain rfl | hp := List.mem_cons.mp hp
    · exact Lines.within_rfl
    -- Continue statements in the body run the condition with its declaration moved.
    · exact (body.within_text _ p hp).of_deeper Looping.infix_doLines

/-- A part of a section stands in its text, and only sections that are written have parts. -/
theorem Sections.within_texts : (ss : Sections Note) → ∀ again, ∀ p ∈ ss.parts bare again,
    ∃ s ∈ ss.texts bare again,
      s.1.isListed = true ∧ (p.statement.text bare p.again).Within s.2
  | .last l values body, again, p, hp => by
    rw [Sections.parts] at hp
    split at hp
    · rename_i hlisted
      refine ⟨_, List.mem_singleton.mpr rfl, hlisted, ?_⟩
      exact (body.within_text again p hp).mono (List.suffix_append _ _).isInfix
    · cases hp
  | .more l values body next rest, again, p, hp => by
    rw [Sections.parts] at hp
    obtain hp | hp := List.mem_append.mp hp
    · split at hp
      · rename_i hlisted
        refine ⟨_, List.mem_cons_self, hlisted, ?_⟩
        exact (body.within_text again p hp).mono (List.suffix_append _ _).isInfix
      · cases hp
    · obtain ⟨s, hs, hwithin⟩ := rest.within_texts again p hp
      exact ⟨s, List.mem_cons_of_mem _ hs, hwithin⟩

end

mutual

/-- The switch statements in a statement list their labels. -/
theorem Statement.listsLabels :
    (t : Statement Note) →
      t.All allowed → ∀ again, ∀ p ∈ t.parts bare again, p.ListsLabels bare
  | .nothing, _, _, _, hp | .evaluate .., _, _, _, hp => absurd hp List.not_mem_nil
  | .andThen x y, hall, again, p, hp =>
    (List.mem_append.mp hp).elim (x.listsLabels hall.1 again p) (y.listsLabels hall.2 again p)
  | .nested body, hall, again, p, hp => body.listsLabels hall again p hp
  | .leave value exit, _, _, p, hp => by
    obtain rfl := List.mem_singleton.mp hp
    trivial
  | .branch s test yes no, hall, again, p, hp => by
    obtain rfl | hp := List.mem_cons.mp hp
    · trivial
    · exact (List.mem_append.mp hp).elim (yes.listsLabels hall.2.1 again p)
        (no.listsLabels hall.2.2 again p)
  | .switch d selector sections, hall, again, p, hp => by
    obtain rfl | hp := List.mem_cons.mp hp
    · exact sections.listed_of_proper bare again hall.2.1
    · exact sections.listsLabels hall.2.2 again p hp
  | .forLoop l first start test step body, hall, again, p, hp => by
    obtain rfl | hp := List.mem_cons.mp hp
    · trivial
    · exact body.listsLabels hall.2.2.2 step.lines p hp
  | .whileLoop l first test body, hall, again, p, hp => by
    obtain rfl | hp := List.mem_cons.mp hp
    · trivial
    · exact body.listsLabels hall.2 [] p hp
  | .doLoop l body test, hall, again, p, hp => by
    obtain rfl | hp := List.mem_cons.mp hp
    · trivial
    · exact body.listsLabels hall.1 _ p hp

theorem Sections.listsLabels :
    (ss : Sections Note) →
      ss.All allowed → ∀ again, ∀ p ∈ ss.parts bare again, p.ListsLabels bare
  | .last l values body, hall, again, p, hp => by
    rw [Sections.parts] at hp
    split at hp
    · exact body.listsLabels hall.2 again p hp
    · cases hp
  | .more l values body next rest, hall, again, p, hp => by
    rw [Sections.parts] at hp
    obtain hp | hp := List.mem_append.mp hp
    · split at hp
      · exact body.listsLabels hall.2.1 again p hp
      · cases hp
    · exact rest.listsLabels hall.2.2 again p hp

end

end Parts

end ShaderEffect
