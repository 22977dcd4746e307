import ShaderEffect.Proofs.Source.Text

/-!
How often lines stand in the text of a function.

Everything that was written into blocks stands in the text once. Apart from that there are the lines
that constructs put around their parts, the code that continue statements run in front of the next
round of their loop, what stands in front of all labels of a switch statement, which is left out,
and the declaration of the condition of a loop, which can be moved.
-/
namespace ShaderEffect

open Source

namespace Source

/-- How often something stands on a line, which is once at most. -/
def Line.tally (c : Content) (l : Line) : Nat :=
  if l.content = c then 1 else 0

namespace Lines

/-- How often something stands on a line of some lines, however deep. -/
def tally (c : Content) (ls : Lines) : Nat :=
  (ls.map (·.content)).count c

variable {c : Content} {n : Nat} {ls ms : Lines} {l : Line}

@[simp] theorem tally_nil : tally c [] = 0 :=
  rfl

@[simp] theorem tally_append : tally c (ls ++ ms) = tally c ls + tally c ms := by
  rw [tally, List.map_append, List.count_append, tally, tally]

@[simp] theorem tally_cons : tally c (l :: ls) = l.tally c + tally c ls := by
  rw [tally, List.map_cons, List.count_cons, Nat.add_comm, tally, Line.tally]
  simp only [beq_iff_eq]

@[simp] theorem tally_line_deeper : (l.deeper n).tally c = l.tally c := by
  rw [Line.tally, Line.content_deeper, Line.tally]

@[simp] theorem tally_deeper : tally c (deeper n ls) = tally c ls := by
  rw [tally, deeper, List.map_map, tally]
  exact congrArg _ (List.map_congr_left fun l _ => l.content_deeper n)

end Lines
end Source

/-- The lines that requests wrote. What a loop runs in front of its next round
belongs to the loop. -/
def Entry.lines (e : Entry Note) : Lines :=
  match e.request with
  | .leaveAndBranch _ .plain => []
  | .leaveAndBranch _ .leaveLoop => [.text 1 "break;"]
  | .leaveAndBranch _ .nextRound => [.text 1 "continue;"]
  | _ => e.note.lines

/-- The lines that requests wrote into blocks. -/
def written (es : List (Entry Note)) : Lines :=
  es.flatMap Entry.lines

/-- Whether a section of a switch statement has a label. -/
def Labels.isListed (l : Labels) : Bool :=
  l.literals ≠ [] ∨ l.isDefault

/-- A statement in another one, in a loop that runs the code `again` in front of its next round. -/
structure Part where
  again : Lines
  statement : Statement Note

mutual

/-- The statements that are written for a statement. -/
def Statement.parts (bare : Bool) (again : Lines) : Statement Note → List Part
  | .nothing | .evaluate .. => []
  | .andThen x y => x.parts bare again ++ y.parts bare again
  | .nested body => body.parts bare again
  | .leave value exit => [⟨again, .leave value exit⟩]
  | .branch s test yes no =>
    ⟨again, .branch s test yes no⟩ :: (yes.parts bare again ++ no.parts bare again)
  | .switch d selector sections =>
    ⟨again, .switch d selector sections⟩ :: sections.parts bare again
  | .forLoop l first start test step body =>
    ⟨again, .forLoop l first start test step body⟩ :: body.parts bare step.lines
  | .whileLoop l first test body => ⟨again, .whileLoop l first test body⟩ :: body.parts bare []
  | .doLoop l body test =>
    ⟨again, .doLoop l body test⟩ :: body.parts bare (l.repeated bare test.lines)

def Sections.parts (bare : Bool) (again : Lines) : Sections Note → List Part
  | .last l _ body => if l.isListed then body.parts bare again else []
  | .more l _ body _ rest =>
    (if l.isListed then body.parts bare again else []) ++ rest.parts bare again

end

/-- What was written for sections that have no label. -/
def Sections.dropped : Sections Note → Lines
  | .last l values body => if l.isListed then [] else written (values.entries ++ body.entries)
  | .more l values body _ rest =>
    (if l.isListed then [] else written (values.entries ++ body.entries)) ++ rest.dropped

namespace Looping

/-- The lines that a loop has apart from its parts, if its condition is evaluated in
front of the body. -/
def whileFrame (l : Looping Note) (test : Lines) : Lines :=
  match (soleCondition? l.condition test).or (if test.isEmpty then some l.note.name else none) with
  | some header => whileLine header :: loopBraces [] [] []
  | none => whileLine "true"
    :: loopBraces [.text 2 ("if (!" ++ l.note.name ++ ")"), .text 3 "break;"] [] []

/-- The declaration of the condition, if it is evaluated in front of the body and moves to the line
that opens the loop. -/
def opened (l : Looping Note) (test : Lines) : Lines :=
  if (soleCondition? l.condition test).isSome then test else []

/-- The declaration of the condition, if it is evaluated behind the body and declared in
front of the loop. -/
def declaration? (bare : Bool) (l : Looping Note) (next : Lines) : Option Line :=
  next.find? fun line => (Lines.initOf? l.condition line).isSome
    || bare && Lines.isBare l.condition line

/-- The assignment that a declaration of the condition becomes, if it has a value. -/
def assignment (l : Looping Note) (line : Line) : Lines :=
  (Lines.initOf? l.condition line).toList.map fun e =>
    { line with content := .text (plainName l.condition ++ " = " ++ e ++ ";") }

/-- The lines that a loop has apart from its parts, if its condition is evaluated
behind the body. -/
def doFrame (bare : Bool) (l : Looping Note) (next : Lines) : Lines :=
  (l.declaration? bare next).toList.flatMap
      (fun line => .text 1 ("bool " ++ l.note.name ++ ";") :: l.assignment line)
    ++ .text 1 "do" :: loopBraces [] [] [] ++ [.text 1 ("while (" ++ l.note.name ++ ");")]

end Looping

namespace Part

/-- The lines that a statement puts around its parts. -/
def frame (bare : Bool) (p : Part) : Lines :=
  match p.statement with
  | .branch _ _ _ no =>
    braced [] ++ if (no.text bare p.again).isEmpty then [] else .text 1 "else" :: braced []
  | .switch _ _ sections =>
    braced [] ++ sections.labels.flatMap fun l =>
      if l.isListed then sectionText (labelText l) [] else []
  | .forLoop l _ _ test _ _ => l.whileFrame (test.elim [] Evaluation.lines)
  | .whileLoop l _ test _ => l.whileFrame test.lines
  | .doLoop l _ test => l.doFrame bare test.lines
  | _ => []

/-- What a continue statement runs in front of the next round. -/
def repeated (p : Part) : Lines :=
  match p.statement with
  | .leave _ (.jump _ _ .nextRound) => p.again
  | _ => []

/-- The declaration of the condition of a loop, if it has moved. -/
def moved (bare : Bool) (p : Part) : Lines :=
  match p.statement with
  | .forLoop l _ _ test _ _ => l.opened (test.elim [] Evaluation.lines)
  | .whileLoop l _ test _ => l.opened test.lines
  | .doLoop l _ test => (l.declaration? bare test.lines).toList
  | _ => []

/-- What stands in front of all labels of a switch statement. -/
def dropped (p : Part) : Lines :=
  match p.statement with
  | .switch _ _ sections => sections.dropped
  | _ => []

end Part

section Constructs

variable {bare : Bool} {c : Content} {header yes no test body next : Lines}

theorem tally_ifText : (ifText header yes no).tally c = header.tally c + yes.tally c + no.tally c
    + Lines.tally c (braced [] ++ if no.isEmpty then [] else .text 1 "else" :: braced []) := by
  unfold ifText
  cases no with
  | nil =>
    simp [braced]
    omega
  | cons =>
    simp [braced]
    omega

theorem Looping.tally_whileLines (c : Content) (l : Looping Note) (test body next : Lines) :
    (l.whileLines test body next).tally c + (l.opened test).tally c
      = l.note.lines.tally c + test.tally c + body.tally c + next.tally c
        + (l.whileFrame test).tally c := by
  unfold whileLines whileFrame opened
  cases hsole : soleCondition? l.condition test with
  | some header =>
    simp [loopBraces, braced]
    omega
  | none =>
    cases test with
    | nil =>
      simp [loopBraces, braced]
      omega
    | cons line rest =>
      simp [loopBraces, braced]
      omega

/-- The declaration of a condition becomes an assignment, and nothing else changes. -/
theorem Looping.assignInstead_spec (bare : Bool) (l : Looping Note) (ls : Lines) :
    match l.declaration? bare ls with
    | some line => ∃ front back, ls = front ++ line :: back
      ∧ Lines.assignInstead? bare l.condition ls = some (front ++ l.assignment line ++ back)
    | none => Lines.assignInstead? bare l.condition ls = none := by
  unfold declaration?
  induction ls with
  | nil => rfl
  | cons line rest ih =>
    rw [Lines.assignInstead?, List.find?_cons]
    cases hinit : Lines.initOf? l.condition line with
    | some e =>
      refine ⟨[], rest, rfl, ?_⟩
      simp [assignment, hinit]
    | none =>
      cases hbare : bare && Lines.isBare l.condition line with
      | true =>
        refine ⟨[], rest, rfl, ?_⟩
        simp [assignment, hinit]
      | false =>
        simp only [Option.isSome_none, Bool.false_or, Bool.false_eq_true, if_false]
        cases hline : rest.find? fun line => (Lines.initOf? l.condition line).isSome
            || bare && Lines.isBare l.condition line with
        | none =>
          rw [hline] at ih
          exact Option.map_eq_none_iff.mpr ih
        | some declaration =>
          rw [hline] at ih
          obtain ⟨front, back, rfl, hmoved⟩ := ih
          exact ⟨line :: front, back, rfl, by rw [hmoved]; rfl⟩

theorem Looping.tally_repeated (bare : Bool) (c : Content) (l : Looping Note) (next : Lines) :
    (l.repeated bare next).tally c + Lines.tally c (l.declaration? bare next).toList
      = next.tally c + Lines.tally c ((l.declaration? bare next).toList.flatMap l.assignment) := by
  have hspec := l.assignInstead_spec bare next
  unfold repeated
  cases hline : l.declaration? bare next with
  | none =>
    rw [hline] at hspec
    rw [hspec]
    rfl
  | some line =>
    rw [hline] at hspec
    obtain ⟨front, back, rfl, hmoved⟩ := hspec
    rw [hmoved]
    simp
    omega

theorem Looping.tally_doLines (bare : Bool) (c : Content) (l : Looping Note) (body next : Lines) :
    (l.doLines bare body next).tally c + Lines.tally c (l.declaration? bare next).toList
      = l.note.lines.tally c + body.tally c + next.tally c + (l.doFrame bare next).tally c := by
  have hspec := l.assignInstead_spec bare next
  have hrepeated := l.tally_repeated bare c next
  unfold doLines doFrame declared
  cases hline : l.declaration? bare next with
  | none =>
    rw [hline] at hspec hrepeated
    rw [hspec]
    simp [loopBraces, braced] at hrepeated ⊢
    omega
  | some line =>
    rw [hline] at hspec hrepeated
    obtain ⟨front, back, -, hmoved⟩ := hspec
    rw [hmoved]
    simp [loopBraces, braced] at hrepeated ⊢
    omega

theorem tally_sectionTexts (sections : List (Labels × Lines)) :
    Lines.tally c (sectionTexts sections).flatten
    = Lines.tally c (sections.flatMap fun s => if s.1.isListed then s.2 else [])
      + Lines.tally c ((sections.map (·.1)).flatMap fun l =>
        if l.isListed then sectionText (labelText l) [] else []) := by
  unfold sectionTexts listed
  induction sections with
  | nil => rfl
  | cons s sections ih =>
    simp only [List.map_append, List.flatten_append, Lines.tally_append] at ih
    by_cases hliterals : s.1.literals = []
    · cases hdefault : s.1.isDefault with
      | true =>
        simp [hliterals, hdefault, Labels.isListed, sectionText] at ih ⊢
        omega
      | false =>
        simp [hliterals, hdefault, Labels.isListed] at ih ⊢
        omega
    · simp [hliterals, Labels.isListed, sectionText] at ih ⊢
      omega

end Constructs

@[simp] theorem written_append {es fs : List (Entry Note)} :
    written (es ++ fs) = written es ++ written fs :=
  List.flatMap_append

@[simp] theorem written_cons {e : Entry Note} {es : List (Entry Note)} :
    written (e :: es) = e.lines ++ written es :=
  List.flatMap_cons

@[simp] theorem written_nil : written [] = [] :=
  rfl

@[simp] theorem written_goOn {target ended next : Id} : written (goOn target ended next) = [] :=
  rfl

@[simp] theorem written_goOnIf {condition yes no ended next : Id} :
    written (goOnIf condition yes no ended next) = [] :=
  rfl

@[simp] theorem written_statementStart : written statementStart = [] :=
  rfl

@[simp] theorem Looping.written_makes {l : Looping Note} : written l.makes = [] :=
  rfl

@[simp] theorem Looping.written_opens {l : Looping Note} {first : Id} :
    written (l.opens first) = [] :=
  rfl

@[simp] theorem Note.lines_default : (default : Note).lines = [] :=
  rfl

theorem Evaluation.written_entries {t : Evaluation Note} (h : t.isStraight = true) :
    written t.entries = t.lines := by
  induction t with
  | nothing => rfl
  | step s =>
    obtain ⟨⟨r, answer, note⟩, hr⟩ := s
    cases r with
    | leaveAndBranch => cases hr
    | _ => exact List.append_nil note.lines
  | andThen x y ihx ihy =>
    obtain ⟨hx, hy⟩ := Bool.and_eq_true_iff.mp h
    rw [entries, written_append, ihx hx, ihy hy, lines]
  | folded | circuit | choice => cases h

theorem Sections.labels_texts {bare : Bool} {again : Lines} : (ss : Sections Note) →
    (ss.texts bare again).map (·.1) = ss.labels
  | .last .. => rfl
  | .more l values body next rest => by rw [texts, List.map_cons, rest.labels_texts, labels]

section Tally

variable {bare : Bool} {c : Content} {allowed : Evaluation Note → Prop}
  (hallowed : ∀ t, allowed t → t.isStraight = true)

include hallowed

mutual

/-- How often lines stand in the text of a statement. -/
theorem Statement.tally_text : (t : Statement Note) → t.All allowed → ∀ again,
    (t.text bare again).tally c + Lines.tally c ((t.parts bare again).flatMap (Part.moved bare))
        + Lines.tally c ((t.parts bare again).flatMap Part.dropped)
      = (written t.entries).tally c + Lines.tally c ((t.parts bare again).flatMap (Part.frame bare))
        + Lines.tally c ((t.parts bare again).flatMap Part.repeated)
  -- By induction over the statement. What is moved, dropped and repeated is gathered from the
  -- parts, so that a sequence adds up. Only loops repeat lines: a body is measured with the
  -- text that its continue statements stand for.
  | .nothing, _, _ => rfl
  | .andThen x y, hall, again => by
    have hx := x.tally_text hall.1 again
    have hy := y.tally_text hall.2 again
    simp only [Statement.text, Statement.parts, Statement.entries, List.flatMap_append,
      written_append, Lines.tally_append]
    omega
  | .nested body, hall, again => body.tally_text hall again
  | .evaluate inFunction value, hall, again => by
    have hwritten : written (Statement.evaluate inFunction value).entries = value.lines :=
      value.written_entries (hallowed _ hall)
    rw [hwritten]
    rfl
  | .leave value exit, hall, again => by
    have hvalue := value.written_entries (hallowed _ hall)
    simp only [Statement.text, Statement.parts, Statement.entries, written_append,
      written_statementStart, hvalue, Lines.tally_append]
    cases exit with
    | discard | giveBack =>
      simp [Exit.lines, Exit.entry, Entry.lines, Part.moved, Part.dropped, Part.frame,
        Part.repeated]
    | jump target ended flow =>
      cases flow with
      | plain | leaveLoop =>
        simp [Exit.lines, Exit.entry, Entry.lines, Part.moved, Part.dropped, Part.frame,
          Part.repeated]
      | nextRound =>
        simp [Exit.lines, Exit.entry, Entry.lines, Part.moved, Part.dropped, Part.frame,
          Part.repeated]
        omega
  | .branch s test yes no, hall, again => by
    have hyes := yes.tally_text hall.2.1 again
    have hno := no.tally_text hall.2.2 again
    have htest := test.written_entries (hallowed _ hall.1)
    simp [Statement.text, Statement.parts, Statement.entries, htest, tally_ifText, Entry.lines,
      Part.moved, Part.dropped, Part.frame, Part.repeated] at hyes hno ⊢
    omega
  | .switch d selector sections, hall, again => by
    have hsections := sections.tally_texts d.merge hall.2.2 again
    have hselector := selector.written_entries (hallowed _ hall.1)
    have htexts := tally_sectionTexts (c := c) (sections.texts bare again)
    rw [sections.labels_texts] at htexts
    simp [Statement.text, Statement.parts, Statement.entries, hselector, switchText, htexts,
      Entry.lines, Part.moved, Part.dropped, Part.frame, Part.repeated, braced] at hsections ⊢
    omega
  | .forLoop l first start test step body, hall, again => by
    have hbody := body.tally_text hall.2.2.2 step.lines
    have hstart := start.written_entries (hallowed _ hall.1)
    have hstep := step.written_entries (hallowed _ hall.2.2.1)
    have hwritten : written (Statement.forLoop l first start test step body).entries = start.lines
        ++ (test.elim [] Evaluation.lines
          ++ (step.lines ++ (written body.entries ++ l.note.lines))) := by
      cases test with
      | none => simp [Statement.entries, hstart, hstep, Looping.closes, Entry.lines]
      | some t =>
        simp [Statement.entries, hstart, hstep, t.written_entries (hallowed _ (hall.2.1 t rfl)),
          Looping.closes, Entry.lines]
    have hloop :=
      l.tally_whileLines c (test.elim [] Evaluation.lines) (body.text bare step.lines) step.lines
    rw [hwritten]
    simp [Statement.text, Statement.parts, Part.moved, Part.dropped, Part.frame,
      Part.repeated] at hbody hloop ⊢
    omega
  | .whileLoop l first test body, hall, again => by
    have hbody := body.tally_text hall.2 []
    have htest := test.written_entries (hallowed _ hall.1)
    have hloop := l.tally_whileLines c test.lines (body.text bare []) []
    simp [Statement.text, Statement.parts, Statement.entries, htest, Looping.closes, Entry.lines,
      Part.moved, Part.dropped, Part.frame, Part.repeated] at hbody hloop ⊢
    omega
  | .doLoop l body test, hall, again => by
    have hbody := body.tally_text hall.1 (l.repeated bare test.lines)
    have htest := test.written_entries (hallowed _ hall.2)
    have hloop := l.tally_doLines bare c (body.text bare (l.repeated bare test.lines)) test.lines
    simp [Statement.text, Statement.parts, Statement.entries, htest, Looping.closes, Entry.lines,
      Part.moved, Part.dropped, Part.frame, Part.repeated] at hbody hloop ⊢
    omega

theorem Sections.tally_texts (merge : Id) : (ss : Sections Note) → ss.All allowed → ∀ again,
    Lines.tally c ((ss.texts bare again).flatMap fun s => if s.1.isListed then s.2 else [])
        + Lines.tally c ((ss.parts bare again).flatMap (Part.moved bare))
        + (Lines.tally c ((ss.parts bare again).flatMap Part.dropped) + ss.dropped.tally c)
      = (written (ss.entries merge)).tally c
        + Lines.tally c ((ss.parts bare again).flatMap (Part.frame bare))
        + Lines.tally c ((ss.parts bare again).flatMap Part.repeated)
  | .last l values body, hall, again => by
    have hbody := body.tally_text hall.2 again
    have hvalues := values.written_entries (hallowed _ hall.1)
    cases hlisted : l.isListed with
    | true =>
      simp [Sections.texts, Sections.parts, Sections.entries, Sections.dropped, hlisted, hvalues,
        Entry.lines] at hbody ⊢
      omega
    | false =>
      simp [Sections.texts, Sections.parts, Sections.entries, Sections.dropped,
        hlisted, Entry.lines]
  | .more l values body next rest, hall, again => by
    have hbody := body.tally_text hall.2.1 again
    have hrest := rest.tally_texts merge hall.2.2 again
    have hvalues := values.written_entries (hallowed _ hall.1)
    cases hlisted : l.isListed with
    | true =>
      simp [Sections.texts, Sections.parts, Sections.entries, Sections.dropped, hlisted,
        hvalues, Entry.lines]
        at hbody hrest ⊢
      omega
    | false =>
      simp [Sections.texts, Sections.parts, Sections.entries, Sections.dropped, hlisted,
        Entry.lines] at hrest ⊢
      omega

end

end Tally

end ShaderEffect
