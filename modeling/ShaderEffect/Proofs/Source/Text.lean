import ShaderEffect.Proofs.Source.Weaving

namespace ShaderEffect

open Source

namespace Source

/-- The place of the code that a loop runs in front of its next round. -/
def markOf (loop : Id) : Line :=
  { depth := 0, content := .continueMark loop }

@[simp] theorem Line.content_deeper (n : Nat) (l : Line) : (l.deeper n).content = l.content := by
  unfold deeper
  split
  · rfl
  · rfl

theorem Line.deeper_deeper (m n : Nat) (l : Line) : (l.deeper m).deeper n = l.deeper (m + n) := by
  obtain ⟨depth, content⟩ := l
  cases content with
  | directive => rfl
  | _ => simp [deeper, Nat.add_assoc]

namespace Lines

variable {n : Nat} {loop : Id} {code ls ms : Lines} {l : Line}

@[simp] theorem deeper_nil : deeper n [] = [] :=
  rfl

@[simp] theorem deeper_cons : deeper n (l :: ls) = l.deeper n :: deeper n ls :=
  rfl

@[simp] theorem deeper_append : deeper n (ls ++ ms) = deeper n ls ++ deeper n ms :=
  List.map_append

@[simp] theorem deeper_zero : deeper 0 ls = ls := by
  refine List.map_id'' (fun l => ?_) ls
  obtain ⟨depth, content⟩ := l
  cases content <;> rfl

theorem deeper_deeper (m : Nat) : deeper n (deeper m ls) = deeper (m + n) ls := by
  rw [deeper, deeper, List.map_map]
  exact List.map_congr_left fun l _ => l.deeper_deeper m n

@[simp] theorem replaceContinue_nil : replaceContinue [] loop code = [] :=
  rfl

@[simp] theorem replaceContinue_append :
    replaceContinue (ls ++ ms) loop code = replaceContinue ls loop code
      ++ replaceContinue ms loop code :=
  List.flatMap_append

@[simp] theorem replaceContinue_text {depth : Nat} {s : String} :
    replaceContinue (.text depth s :: ls) loop code
      = .text depth s :: replaceContinue ls loop code :=
  rfl

@[simp] theorem replaceContinue_mark : replaceContinue [markOf loop] loop code = code := by
  simp [replaceContinue, markOf]

/-- The code of a loop is as deep as its mark was. -/
theorem replaceContinue_deeper :
    replaceContinue (deeper n ls) loop code = deeper n (replaceContinue ls loop code) := by
  induction ls with
  | nil => rfl
  | cons l ls ih =>
    rw [deeper_cons, replaceContinue, List.flatMap_cons, ← replaceContinue, ih, replaceContinue,
      replaceContinue, List.flatMap_cons, deeper_append, Line.content_deeper]
    refine congrArg (· ++ _) ?_
    split
    · rename_i hmark
      have hdepth : (l.deeper n).depth = l.depth + n := by simp [Line.deeper, hmark]
      rw [hdepth, deeper_deeper]
    · rfl

theorem replaceContinue_of_unmarked (h : Unmarked ls) : replaceContinue ls loop code = ls := by
  refine (List.flatMap_congr fun l hl => if_neg (h.content l hl loop)).trans ?_
  exact List.flatMap_singleton' ls

end Lines

open Lines

instance Unmarked.deeper {n : Nat} {ls : Lines} [h : Unmarked ls] : Unmarked (ls.deeper n) where
  content := by
    simp only [Lines.deeper, List.mem_map]
    rintro _ ⟨l, hl, rfl⟩ loop
    rw [Line.content_deeper]
    exact h.content l hl loop

end Source

/-- What an evaluation wrote that happens in one block. -/
def Evaluation.lines : Evaluation Note → Lines
  | .step s => s.val.note.lines
  | .andThen x y => x.lines ++ y.lines
  | .nothing | .folded .. | .circuit .. | .choice .. => []

/-- The text of an exit. A loop runs the code `again` in front of its next round. -/
def Exit.lines (again : Lines) : Exit Note → Lines
  | .discard _ note | .giveBack _ _ note => note.lines
  | .jump _ _ .plain => []
  | .jump _ _ .leaveLoop => [.text 1 "break;"]
  | .jump _ _ .nextRound => again ++ [.text 1 "continue;"]

namespace Looping

/-- The text of a loop whose condition is evaluated in front of its body. -/
def whileLines (l : Looping Note) (test body next : Lines) : Lines :=
  match (soleCondition? l.condition test).or (if test.isEmpty then some l.note.name else none) with
  | some header => l.note.lines ++ whileLine header :: loopBraces [] body next
  | none =>
    l.note.lines ++ whileLine "true" :: loopBraces
      (test.deeper 1 ++ [.text 2 ("if (!" ++ l.note.name ++ ")"), .text 3 "break;"]) body next

/-- What a loop runs behind its body, if the condition is declared in front of the loop
where it can be. -/
def repeated (bare : Bool) (l : Looping Note) (next : Lines) : Lines :=
  (Lines.assignInstead? bare l.condition next).getD next

/-- The declaration of the condition in front of a loop. -/
def declared (bare : Bool) (l : Looping Note) (next : Lines) : Lines :=
  if (Lines.assignInstead? bare l.condition next).isSome then
    [.text 1 ("bool " ++ l.note.name ++ ";")] else []

/-- The text of a loop whose condition is evaluated behind its body. -/
def doLines (bare : Bool) (l : Looping Note) (body next : Lines) : Lines :=
  l.declared bare next ++ (l.note.lines ++ .text 1 "do" :: loopBraces [] body (l.repeated bare next)
    ++ [.text 1 ("while (" ++ l.note.name ++ ");")])

theorem doText_eq (bare : Bool) (l : Looping Note) (body next : Lines) :
    doText bare l.condition l.next l.note.head body next
      = l.doLines bare (body.replaceContinue l.next (l.repeated bare next)) next := by
  unfold doText doLines declared repeated
  cases Lines.assignInstead? bare l.condition next <;> rfl

end Looping

mutual

/-- The text of a statement that stands in a loop which runs the code `again` in front of
its next round. -/
def Statement.text (bare : Bool) (again : Lines) : Statement Note → Lines
  | .nothing => []
  | .andThen x y => x.text bare again ++ y.text bare again
  | .nested body => body.text bare again
  | .evaluate _ value => value.lines
  | .leave value exit => value.lines ++ exit.lines again
  | .branch s test yes no =>
    test.lines ++ ifText s.note.lines (yes.text bare again) (no.text bare again)
  | .switch d selector sections =>
    selector.lines ++ switchText d.note.lines (sectionTexts (sections.texts bare again))
  | .forLoop l _ start test step body =>
    start.lines ++ l.whileLines (test.elim [] Evaluation.lines)
      (body.text bare step.lines) step.lines
  | .whileLoop l _ test body => l.whileLines test.lines (body.text bare []) []
  | .doLoop l body test => l.doLines bare (body.text bare (l.repeated bare test.lines)) test.lines

/-- The texts of the sections of a switch statement, with their labels. -/
def Sections.texts (bare : Bool) (again : Lines) : Sections Note → List (Labels × Lines)
  | .last l values body => [(l, values.lines ++ body.text bare again)]
  | .more l values body _ rest => (l, values.lines ++ body.text bare again) :: rest.texts bare again

end

/-- The text of a function behind what declares it. -/
def Procedure.text (bare : Bool) (f : Procedure Note) : Lines :=
  f.body.text bare [] ++ f.fallsOut.elim [] (·.2.lines)

section Weaving

variable {bare : Bool}

theorem Evaluation.run_eq {t : Evaluation Note} (h : t.isStraight = true) (k : Lines) :
    (weave bare).run k t = k ++ t.lines := by
  induction t generalizing k with
  | nothing => exact (List.append_nil k).symm
  | step s => rfl
  | andThen x y ihx ihy =>
    obtain ⟨hx, hy⟩ := Bool.and_eq_true_iff.mp h
    rw [Weave.run, ihx hx, ihy hy, List.append_assoc, lines]
  | folded | circuit | choice => cases h

theorem Evaluation.moves_of_isStraight {t : Evaluation Note} (h : t.isStraight = true) :
    t.moves = false := by
  induction t with
  | nothing | step | folded => rfl
  | andThen x y ihx ihy =>
    obtain ⟨hx, hy⟩ := Bool.and_eq_true_iff.mp h
    rw [moves, ihx hx, ihy hy, Bool.or_false]
  | circuit | choice => cases h

theorem goOn_eq (k : Lines) (target : Id) : (weave bare).goOn k target = k :=
  List.append_nil k

theorem goOnUnless_eq (ended : Bool) (k : Lines) (target : Id) :
    (weave bare).goOnUnless ended k target = k := by
  cases ended with
  | true => rfl
  | false => exact goOn_eq k target

theorem nextCode_eq (bare : Bool) {t : Evaluation Note} (h : t.isStraight = true) (next : Id)
    (ending : Ending) (hending : ∀ k, (weave bare).leave k ending default = k) :
    (weave bare).nextCode t next ending = t.lines := by
  have hmoves : t.moves = false := Evaluation.moves_of_isStraight h
  rw [Weave.nextCode, hmoves, Bool.false_and, if_neg Bool.false_ne_true, hending, t.run_eq h]
  rfl

theorem testCode_eq (bare : Bool) (l : Looping Note) (first : Id) (test : Option (Evaluation Note))
    (h : ∀ t ∈ test, t.isStraight = true) :
    (weave bare).testCode l first test = test.elim [] Evaluation.lines := by
  cases test with
  | none => rfl
  | some t => exact t.run_eq (h t rfl) []

/-- The marks of the innermost loop. -/
def marks (continues : List Id) : Lines :=
  continues.head?.toList.map markOf

theorem leave_eq {exit : Exit Note} {breaks continues : List Id}
    (h : exit.Scoped breaks continues) (k : Lines) :
    (weave bare).leave k exit.ending exit.note = k ++ exit.lines (marks continues) := by
  cases exit with
  | discard | giveBack => rfl
  | jump target ended flow =>
    cases flow with
    | plain => cases h
    | leaveLoop => rfl
    | nextRound =>
      have h : continues.head? = some target := h
      rw [Exit.lines, marks, h]
      rfl

end Weaving

/-- Whether a request generates a short circuit. -/
def Request.isPhi : Request → Bool
  | .emitPhi .. => true
  | _ => false

/-- Whether what requests wrote has no marks. Short circuits are left out. -/
def AreUnmarked (es : List (Entry Note)) : Prop :=
  ∀ e ∈ es, e.request.isPhi = false → Unmarked e.note.lines

@[simp] theorem areUnmarked_append {es fs : List (Entry Note)} :
    AreUnmarked (es ++ fs) ↔ AreUnmarked es ∧ AreUnmarked fs :=
  List.forall_mem_append

@[simp] theorem areUnmarked_cons {e : Entry Note} {es : List (Entry Note)} :
    AreUnmarked (e :: es) ↔ (e.request.isPhi = false → Unmarked e.note.lines)
      ∧ AreUnmarked es :=
  List.forall_mem_cons

theorem Evaluation.unmarked_lines {t : Evaluation Note} (h : AreUnmarked t.entries) :
    Unmarked t.lines := by
  induction t with
  | step s =>
    have hphi : s.val.request.isPhi = false := by
      obtain ⟨⟨r, answer, note⟩, hr⟩ := s
      cases r with
      | emitPhi => cases hr
      | _ => rfl
    exact (areUnmarked_cons.mp h).1 hphi
  | andThen x y ihx ihy =>
    obtain ⟨hx, hy⟩ := areUnmarked_append.mp h
    have := ihx hx
    have := ihy hy
    exact .append
  | nothing | folded | circuit | choice => exact .nil

section Unmarked

variable {bare : Bool} {again header test body next yes no : Lines}

instance unmarked_braced {code : Lines} [Unmarked code] : Unmarked (braced code) := by
  unfold braced
  infer_instance

instance unmarked_ifText [Unmarked header] [Unmarked yes] [Unmarked no] :
    Unmarked (ifText header yes no) := by
  unfold ifText
  infer_instance

instance unmarked_loopBraces {first last : Lines} [Unmarked first] [Unmarked body] [Unmarked last] :
    Unmarked (loopBraces first body last) := by
  unfold loopBraces
  infer_instance

theorem unmarked_switchText {sections : List (Labels × Lines)} [Unmarked header]
    (h : ∀ s ∈ sections, Unmarked s.2) :
    Unmarked (switchText header (sectionTexts sections)) := by
  have : Unmarked (sectionTexts sections).flatten := by
    refine ⟨fun l hl => ?_⟩
    obtain ⟨_, hmem, hl⟩ := List.mem_flatten.mp hl
    obtain ⟨s, hs, rfl⟩ := List.mem_map.mp hmem
    have := h s (by
      obtain hs | hs := List.mem_append.mp hs
      · exact List.mem_of_mem_filter hs
      · exact List.mem_of_mem_filter hs)
    have hsection : Unmarked (sectionText (labelText s.1) s.2) := by
      unfold sectionText
      infer_instance
    exact hsection.content l hl
  unfold switchText
  infer_instance

theorem Looping.unmarked_whileLines {l : Looping Note} [Unmarked l.note.lines] [Unmarked test]
    [Unmarked body] [Unmarked next] : Unmarked (l.whileLines test body next) := by
  unfold whileLines whileLine
  split <;> infer_instance

theorem unmarked_assignInstead {id : Id} {ls ms : Lines} (h : Unmarked ls)
    (hms : Lines.assignInstead? bare id ls = some ms) : Unmarked ms := by
  induction ls generalizing ms with
  | nil => cases hms
  | cons l ls ih =>
    obtain ⟨hl, hls⟩ := List.forall_mem_cons.mp h.content
    rw [Lines.assignInstead?] at hms
    split at hms
    · obtain rfl := Option.some.inj hms
      exact .of_cons nofun ⟨hls⟩
    · split at hms
      · obtain rfl := Option.some.inj hms
        exact ⟨hls⟩
      · obtain ⟨rest, hrest, rfl⟩ := Option.map_eq_some_iff.mp hms
        exact .of_cons hl (ih ⟨hls⟩ hrest)

theorem Looping.unmarked_repeated {l : Looping Note} [h : Unmarked next] :
    Unmarked (l.repeated bare next) := by
  rw [repeated]
  cases hms : Lines.assignInstead? bare l.condition next with
  | none => exact h
  | some ms => exact unmarked_assignInstead h hms

theorem Looping.unmarked_doLines {l : Looping Note} [Unmarked l.note.lines] [Unmarked body]
    [Unmarked next] :
    Unmarked (l.doLines bare body next) := by
  have : Unmarked (l.repeated bare next) := l.unmarked_repeated
  unfold doLines declared
  infer_instance

theorem Exit.unmarked_lines {exit : Exit Note} (h : AreUnmarked [exit.entry])
    (hagain : Unmarked again) :
    Unmarked (exit.lines again) := by
  have hnote := (areUnmarked_cons.mp h).1
  cases exit with
  | discard | giveBack => exact hnote rfl
  | jump target ended flow =>
    unfold lines
    cases flow <;> infer_instance

mutual

/-- The text of a statement has no marks but those of the loop around it. -/
theorem Statement.unmarked_text :
    (t : Statement Note) → AreUnmarked t.entries → ∀ {again}, Unmarked again →
    Unmarked (t.text bare again)
  -- By induction over the statement. A loop replaces the marks of its body by what it does
  -- before its next round, which has no marks itself.
  | .nothing, _, _, _ => .nil
  | .andThen x y, h, _, hagain => by
    obtain ⟨hx, hy⟩ := areUnmarked_append.mp h
    have := x.unmarked_text hx hagain
    have := y.unmarked_text hy hagain
    rw [Statement.text]
    infer_instance
  | .nested body, h, _, hagain => body.unmarked_text (areUnmarked_cons.mp h).2 hagain
  | .evaluate inFunction value, h, _, _ => by
    simp only [Statement.entries, areUnmarked_cons] at h
    exact value.unmarked_lines h.2.2
  | .leave value exit, h, _, hagain => by
    simp only [Statement.entries, areUnmarked_append] at h
    have := value.unmarked_lines h.1.2
    have := exit.unmarked_lines h.2 hagain
    rw [Statement.text]
    infer_instance
  | .branch s test yes no, h, _, hagain => by
    simp only [Statement.entries, areUnmarked_append, areUnmarked_cons] at h
    have := test.unmarked_lines (by tauto)
    have := yes.unmarked_text (by tauto) hagain
    have := no.unmarked_text (by tauto) hagain
    have : Unmarked s.note.lines := h.2.1 rfl
    rw [Statement.text]
    infer_instance
  | .switch d selector sections, h, again, hagain => by
    simp only [Statement.entries, areUnmarked_append, areUnmarked_cons] at h
    have := selector.unmarked_lines (by tauto)
    have : Unmarked d.note.lines := h.2.1 rfl
    have : Unmarked (switchText d.note.lines (sectionTexts (sections.texts bare again))) :=
      unmarked_switchText (sections.unmarked_texts (by tauto) hagain)
    rw [Statement.text]
    infer_instance
  | .forLoop l first start test step body, h, _, hagain => by
    simp only [Statement.entries, areUnmarked_append, areUnmarked_cons] at h
    have : Unmarked l.note.lines := h.2.1 rfl
    have := start.unmarked_lines (by tauto)
    have htest : Unmarked (test.elim [] Evaluation.lines) := by
      cases test with
      | none => exact .nil
      | some t =>
        simp only [areUnmarked_append] at h
        exact t.unmarked_lines (by tauto)
    have hstep := step.unmarked_lines (by tauto)
    have := body.unmarked_text (by tauto) hstep
    have : Unmarked (l.whileLines (test.elim [] Evaluation.lines) (body.text bare step.lines)
        step.lines) :=
      l.unmarked_whileLines
    rw [Statement.text]
    infer_instance
  | .whileLoop l first test body, h, _, hagain => by
    simp only [Statement.entries, areUnmarked_append, areUnmarked_cons] at h
    have : Unmarked l.note.lines := h.2.1 rfl
    have := test.unmarked_lines (by tauto)
    have := body.unmarked_text (by tauto) .nil
    exact l.unmarked_whileLines
  | .doLoop l body test, h, _, hagain => by
    simp only [Statement.entries, areUnmarked_append, areUnmarked_cons] at h
    have : Unmarked l.note.lines := h.2.1 rfl
    have := test.unmarked_lines (by tauto)
    have hnext : Unmarked (l.repeated bare test.lines) := l.unmarked_repeated
    have := body.unmarked_text (by tauto) hnext
    exact l.unmarked_doLines

theorem Sections.unmarked_texts {merge : Id} :
    (ss : Sections Note) → AreUnmarked (ss.entries merge) →
    ∀ {again}, Unmarked again → ∀ s ∈ ss.texts bare again, Unmarked s.2
  | .last l values body, h, _, hagain => by
    simp only [Sections.entries, areUnmarked_append, areUnmarked_cons] at h
    have := values.unmarked_lines (by tauto)
    have := body.unmarked_text (by tauto) hagain
    rw [Sections.texts, List.forall_mem_singleton]
    infer_instance
  | .more l values body next rest, h, _, hagain => by
    simp only [Sections.entries, areUnmarked_append, areUnmarked_cons] at h
    have := values.unmarked_lines (by tauto)
    have := body.unmarked_text (by tauto) hagain
    rw [Sections.texts, List.forall_mem_cons]
    exact ⟨inferInstance, rest.unmarked_texts (by tauto) hagain⟩

end

end Unmarked

section Replacing

variable {bare : Bool} {loop : Id} {code header yes no : Lines}

theorem replaceContinue_ifText (hheader : Unmarked header)
    (hno : (no.replaceContinue loop code).isEmpty = no.isEmpty) :
    (ifText header yes no).replaceContinue loop code
      = ifText header (yes.replaceContinue loop code) (no.replaceContinue loop code) := by
  unfold ifText
  rw [Lines.replaceContinue_append, Lines.replaceContinue_append,
    Lines.replaceContinue_of_unmarked hheader, hno]
  simp only [braced, Lines.replaceContinue_append, Lines.replaceContinue_text,
    Lines.replaceContinue_nil, Lines.replaceContinue_deeper]
  split
  · rfl
  · simp only [Lines.replaceContinue_append, Lines.replaceContinue_text, Lines.replaceContinue_nil,
      Lines.replaceContinue_deeper]

theorem replaceContinue_switchText {sections : List (Labels × Lines)} (hheader : Unmarked header) :
    (switchText header (sectionTexts sections)).replaceContinue loop code
      = switchText header
        (sectionTexts (sections.map fun s => (s.1, s.2.replaceContinue loop code))) := by
  have hsection (s : Labels × Lines) : (sectionText (labelText s.1) s.2).replaceContinue loop code
      = sectionText (labelText s.1) (s.2.replaceContinue loop code) := by
    simp only [sectionText, Lines.replaceContinue_append, Lines.replaceContinue_text,
      Lines.replaceContinue_nil, Lines.replaceContinue_deeper, List.cons_append]
  have hsections (ss : List (Labels × Lines)) :
      Lines.replaceContinue (ss.map fun s => sectionText (labelText s.1) s.2).flatten loop code
        = ((ss.map fun s => (s.1, s.2.replaceContinue loop code)).map fun s =>
          sectionText (labelText s.1) s.2).flatten := by
    induction ss with
    | nil => rfl
    | cons s ss ih =>
      rw [List.map_cons, List.flatten_cons, Lines.replaceContinue_append, ih, hsection]
      rfl
  have hlisted : listed (sections.map fun s => (s.1, s.2.replaceContinue loop code))
      = (listed sections).map fun s => (s.1, s.2.replaceContinue loop code) := by
    simp only [listed, List.filter_map, List.map_append, Function.comp_def]
  unfold switchText sectionTexts
  rw [Lines.replaceContinue_append, Lines.replaceContinue_append,
    Lines.replaceContinue_of_unmarked hheader, Lines.replaceContinue_text, hsections, hlisted]
  rfl

/-- Whether a branch is empty does not depend on what a continue statement runs. -/
theorem Statement.text_eq_nil (again more : Lines) : (t : Statement Note) →
    (t.text bare again = [] ↔ t.text bare more = [])
  | .nothing | .evaluate .. | .forLoop .. | .whileLoop .. | .doLoop .. => Iff.rfl
  | .andThen x y => by
    rw [text, text, List.append_eq_nil_iff, List.append_eq_nil_iff, x.text_eq_nil again more,
      y.text_eq_nil again more]
  | .nested body => body.text_eq_nil again more
  | .leave value exit => by
    cases exit with
    | discard | giveBack => exact Iff.rfl
    | jump target ended flow => cases flow <;> simp [text, Exit.lines]
  | .branch .. | .switch .. => by
    simp [text, ifText, switchText, braced]

theorem Exit.replaceContinue_lines {exit : Exit Note} (h : AreUnmarked [exit.entry]) :
    (exit.lines [markOf loop]).replaceContinue loop code = exit.lines code := by
  have hnote := (areUnmarked_cons.mp h).1
  cases exit with
  | discard | giveBack => exact Lines.replaceContinue_of_unmarked (hnote rfl)
  | jump target ended flow =>
    cases flow with
    | plain | leaveLoop => rfl
    | nextRound => rw [lines, Lines.replaceContinue_append, Lines.replaceContinue_mark]; rfl

mutual

/-- The text of a statement in a loop that is complete. Loops in it are complete before. -/
theorem Statement.replaceContinue_text (hcode : Unmarked code) :
    (t : Statement Note) → AreUnmarked t.entries →
    (t.text bare [markOf loop]).replaceContinue loop code = t.text bare code
  -- By induction over the statement. Loops inside have no marks left, so that nothing is
  -- replaced in them a second time.
  | .nothing, _ => rfl
  | .andThen x y, h => by
    obtain ⟨hx, hy⟩ := areUnmarked_append.mp h
    rw [Statement.text, Lines.replaceContinue_append, x.replaceContinue_text hcode hx,
      y.replaceContinue_text hcode hy, Statement.text]
  | .nested body, h => body.replaceContinue_text hcode (areUnmarked_cons.mp h).2
  | .evaluate inFunction value, h => by
    simp only [Statement.entries, areUnmarked_cons] at h
    exact Lines.replaceContinue_of_unmarked (value.unmarked_lines h.2.2)
  | .leave value exit, h => by
    simp only [Statement.entries, areUnmarked_append] at h
    rw [Statement.text, Lines.replaceContinue_append, exit.replaceContinue_lines h.2,
      Lines.replaceContinue_of_unmarked (value.unmarked_lines h.1.2), Statement.text]
  | .branch s test yes no, h => by
    simp only [Statement.entries, areUnmarked_append, areUnmarked_cons] at h
    have hyes := yes.replaceContinue_text hcode (by tauto)
    have hno := no.replaceContinue_text hcode (by tauto)
    have hempty : ((no.text bare [markOf loop]).replaceContinue loop code).isEmpty
        = (no.text bare [markOf loop]).isEmpty := by
      rw [hno, Bool.eq_iff_iff, List.isEmpty_iff, List.isEmpty_iff]
      exact no.text_eq_nil code [markOf loop]
    rw [Statement.text, Lines.replaceContinue_append,
      Lines.replaceContinue_of_unmarked (test.unmarked_lines (by tauto)),
      replaceContinue_ifText (h.2.1 rfl) hempty, hyes, hno, Statement.text]
  | .switch d selector sections, h => by
    simp only [Statement.entries, areUnmarked_append, areUnmarked_cons] at h
    rw [Statement.text, Lines.replaceContinue_append,
      Lines.replaceContinue_of_unmarked (selector.unmarked_lines (by tauto)),
      replaceContinue_switchText (h.2.1 rfl),
      sections.replaceContinue_texts hcode (by tauto), Statement.text]
  | .forLoop l first start test step body, h =>
    have hunmarked : Unmarked ((Statement.forLoop l first start test step body).text bare code) :=
      Statement.unmarked_text _ h hcode
    Lines.replaceContinue_of_unmarked hunmarked
  | .whileLoop l first test body, h =>
    have hunmarked : Unmarked ((Statement.whileLoop l first test body).text bare code) :=
      Statement.unmarked_text _ h hcode
    Lines.replaceContinue_of_unmarked hunmarked
  | .doLoop l body test, h =>
    have hunmarked : Unmarked ((Statement.doLoop l body test).text bare code) :=
      Statement.unmarked_text _ h hcode
    Lines.replaceContinue_of_unmarked hunmarked

theorem Sections.replaceContinue_texts {merge : Id} (hcode : Unmarked code) :
    (ss : Sections Note) →
    AreUnmarked (ss.entries merge) →
    (ss.texts bare [markOf loop]).map (fun s => (s.1, s.2.replaceContinue loop code))
      = ss.texts bare code
  | .last l values body, h => by
    simp only [Sections.entries, areUnmarked_append, areUnmarked_cons] at h
    simp only [Sections.texts, List.map_cons, List.map_nil, Lines.replaceContinue_append,
      Lines.replaceContinue_of_unmarked (values.unmarked_lines h.1.1),
      body.replaceContinue_text hcode h.1.2]
  | .more l values body next rest, h => by
    simp only [Sections.entries, areUnmarked_append, areUnmarked_cons] at h
    simp only [Sections.texts, List.map_cons, Lines.replaceContinue_append,
      Lines.replaceContinue_of_unmarked (values.unmarked_lines h.1.1.1),
      body.replaceContinue_text hcode h.1.1.2, rest.replaceContinue_texts hcode h.2]

end

end Replacing

section Woven

variable {bare : Bool} {allowed : Evaluation Note → Prop}
  (hallowed : ∀ t, allowed t → t.isStraight = true)

include hallowed

mutual

/-- What is woven for a statement is its text, with the marks of the innermost loop. -/
theorem Statement.flow_eq :
    (t : Statement Note) → t.All allowed → ∀ {breaks continues : List Id},
    t.Scoped breaks continues →
      AreUnmarked t.entries → ∀ k, (weave bare).flow k t = k ++ t.text bare (marks continues)
  | .nothing, _, _, _, _, _, k => (List.append_nil k).symm
  | .andThen x y, hall, _, _, hscoped, h, k => by
    obtain ⟨hx, hy⟩ := areUnmarked_append.mp h
    rw [Weave.flow, x.flow_eq hall.1 hscoped.1 hx, y.flow_eq hall.2 hscoped.2 hy, List.append_assoc,
      Statement.text]
  | .nested body, hall, _, _, hscoped, h, k => body.flow_eq hall hscoped (areUnmarked_cons.mp h).2 k
  | .evaluate _ value, hall, _, _, _, _, k => value.run_eq (hallowed _ hall) k
  | .leave value exit, hall, _, _, hscoped, _, k => by
    rw [Weave.flow, leave_eq hscoped, value.run_eq (hallowed _ hall), List.append_assoc,
      Statement.text]
  | .branch s test yes no, hall, _, continues, hscoped, h, k => by
    simp only [Statement.entries, areUnmarked_append, areUnmarked_cons] at h
    have hyes := yes.flow_eq hall.2.1 hscoped.1 (by tauto) []
    have hno := no.flow_eq hall.2.2 hscoped.2 (by tauto) []
    rw [Weave.flow, goOnUnless_eq, goOnUnless_eq]
    show [] ++ ((weave bare).run k test
      ++ ifText s.note.lines ((weave bare).flow [] yes) ((weave bare).flow [] no)) = _
    rw [hyes, hno, test.run_eq (hallowed _ hall.1), List.append_assoc, Statement.text]
    rfl
  | .switch d selector sections, hall, _, continues, hscoped, h, k => by
    simp only [Statement.entries, areUnmarked_append, areUnmarked_cons] at h
    have hsections := sections.sectionCodes_eq hall.2.2 hscoped h.1.2
    rw [Weave.flow]
    show [] ++ ((weave bare).run k selector
      ++ switchText d.note.lines (sectionTexts ((weave bare).sectionCodes [] sections))) = _
    rw [hsections, selector.run_eq (hallowed _ hall.1), List.append_assoc, Statement.text]
    rfl
  | .forLoop l first start test step body, hall, breaks, continues, hscoped, h, k => by
    simp only [Statement.entries, areUnmarked_append, areUnmarked_cons] at h
    have hbody := body.flow_eq hall.2.2.2 hscoped (by tauto) []
    have htest := testCode_eq bare l first test fun t ht => hallowed t (hall.2.1 t ht)
    have hnext :=
      nextCode_eq bare (hallowed _ hall.2.2.1) l.next (.goOn l.header) fun k => List.append_nil k
    have hstep : Unmarked step.lines := step.unmarked_lines (by tauto)
    rw [Weave.flow, goOnUnless_eq, goOn_eq, htest, hnext]
    -- What is woven has the step in place of each mark of the loop, so that it is the text that
    -- repeats the step.
    show [] ++ ((weave bare).run k start ++ l.whileLines (test.elim [] Evaluation.lines)
      (((weave bare).flow [] body).replaceContinue l.next step.lines) step.lines) = _
    rw [hbody, start.run_eq (hallowed _ hall.1)]
    show k ++ start.lines ++ l.whileLines (test.elim [] Evaluation.lines)
      ((body.text bare [markOf l.next]).replaceContinue l.next step.lines) step.lines = _
    rw [body.replaceContinue_text hstep (by tauto), List.append_assoc, Statement.text]
  | .whileLoop l first test body, hall, breaks, continues, hscoped, h, k => by
    simp only [Statement.entries, areUnmarked_append, areUnmarked_cons] at h
    have hbody := body.flow_eq hall.2 hscoped (by tauto) []
    have htest := testCode_eq bare l first (some test) fun t ht =>
      Option.mem_some.mp ht ▸ hallowed test hall.1
    rw [Weave.flow, goOnUnless_eq, goOn_eq, htest]
    show [] ++ (k
      ++ l.whileLines test.lines (((weave bare).flow [] body).replaceContinue l.next []) []) = _
    rw [hbody]
    show k ++ l.whileLines test.lines
      ((body.text bare [markOf l.next]).replaceContinue l.next []) [] = _
    rw [body.replaceContinue_text .nil (by tauto), Statement.text]
  | .doLoop l body test, hall, breaks, continues, hscoped, h, k => by
    simp only [Statement.entries, areUnmarked_append, areUnmarked_cons] at h
    have hbody := body.flow_eq hall.1 hscoped (by tauto) []
    have hnext :=
      nextCode_eq bare (hallowed _ hall.2) l.next
        (.branchIf l.condition l.header l.merge) fun k => rfl
    have htest : Unmarked test.lines := test.unmarked_lines (by tauto)
    have hrepeated : Unmarked (l.repeated bare test.lines) := l.unmarked_repeated
    rw [Weave.flow, goOnUnless_eq, goOn_eq, hnext]
    show [] ++ (k ++ doText bare l.condition l.next l.note.head ((weave bare).flow [] body)
      test.lines) = _
    rw [hbody, Looping.doText_eq]
    show k ++ l.doLines bare
      ((body.text bare [markOf l.next]).replaceContinue l.next (l.repeated bare test.lines))
      test.lines = _
    rw [body.replaceContinue_text hrepeated (by tauto), Statement.text]

theorem Sections.sectionCodes_eq {merge : Id} :
    (ss : Sections Note) → ss.All allowed → ∀ {breaks continues : List Id},
    ss.Scoped breaks continues → AreUnmarked (ss.entries merge) →
    (weave bare).sectionCodes [] ss = ss.texts bare (marks continues)
  | .last l values body, hall, _, _, hscoped, h => by
    simp only [Sections.entries, areUnmarked_append, areUnmarked_cons] at h
    rw [Weave.sectionCodes, values.run_eq (hallowed _ hall.1), body.flow_eq hall.2 hscoped h.1.2,
      Sections.texts]
    rfl
  | .more l values body next rest, hall, _, _, hscoped, h => by
    simp only [Sections.entries, areUnmarked_append, areUnmarked_cons] at h
    have hrest := rest.sectionCodes_eq hall.2.2 hscoped.2 h.2
    rw [Weave.sectionCodes, values.run_eq (hallowed _ hall.1),
      body.flow_eq hall.2.1 hscoped.1 h.1.1.2, Sections.texts]
    exact congrArg _ hrest

end

/-- What is woven for a function is its text. -/
theorem Procedure.function_eq {f : Procedure Note} (hall : f.body.All allowed)
    (hscoped : f.body.Scoped [] [])
    (h : AreUnmarked f.body.entries) : (weave bare).function f = f.text bare := by
  have hbody : (weave bare).flow [] f.body = f.body.text bare [] :=
    f.body.flow_eq hallowed hall hscoped h []
  rw [Procedure.text, ← hbody, Weave.function]
  cases f.fallsOut with
  | none => exact (List.append_nil _).symm
  | some fallsOut => rfl

end Woven

end ShaderEffect
