import ShaderEffect.Proofs.Requests.Source
import ShaderEffect.Proofs.Source.Writing
import ShaderEffect.Proofs.Weave.Scene

namespace ShaderEffect.Source

open Generator

variable {δ : Type}

/-- What is noted of a request: the lines that it writes itself, and the name of the
condition of a loop. -/
structure Note where
  lines : Lines := []
  name : String := ""
deriving Inhabited

/-- What stands in front of a loop, as it is noted. -/
def Note.head (n : Note) : LoopHead :=
  { lines := n.lines, name := n.name }

/-- The lines of a jump. -/
def jumpLines (target : Id) : Flow → Lines
  | .plain => []
  | .leaveLoop => [.text 1 "break;"]
  | .nextRound => [{ depth := 0, content := .continueMark target }, .text 1 "continue;"]

/-- The sections of a switch statement that are written, in their order. One that has the default
label only comes last, and what stands in front of all labels is left out. -/
def listed {κ : Type} (sections : List (Labels × κ)) : List (Labels × κ) :=
  sections.filter (·.1.literals ≠ [])
    ++ sections.filter fun s => s.1.literals = [] ∧ s.1.isDefault

/-- The labels of a section as they are written in front of its code. -/
def labelText (l : Labels) : String :=
  String.join (l.literals.map caseLabel) ++ if l.isDefault then defaultText else ""

/-- The sections of a switch statement as they are written. -/
def sectionTexts (sections : List (Labels × Lines)) : List Lines :=
  (listed sections).map fun s => sectionText (labelText s.1) s.2

/-- How source text is put together. A declaration that has no value can be moved out of a loop if
`bare` says so. -/
def weave (bare : Bool) : Weave Note Lines where
  follows := false
  enter _ := []
  add k note := k ++ note.lines
  leave k e note :=
    match e with
    | .kill | .giveBack _ => k ++ note.lines
    | .switch .. | .branchIf .. => k
    | .branch target flow => k ++ jumpLines target flow
  rest _ := []
  ifElse s start test yes no := start ++ (test ++ ifText s.note.lines yes no)
  phi _ note start test _ _ := start ++ (test ++ note.lines)
  loop l start before _ test body next :=
    start ++ (before ++ match test with
      | some test => whileText l.condition l.next l.note.head test body next
      | none => doText bare l.condition l.next l.note.head body next)
  switch d start selector sections :=
    start ++ (selector ++ switchText d.note.lines (sectionTexts sections))

theorem weave_ifElse (bare : Bool) (s : Selection Note) (start test yes no : Lines) :
    (weave bare).ifElse s start test yes no = start ++ (test ++ ifText s.note.lines yes no) :=
  rfl

theorem weave_loop (bare : Bool) (l : Looping Note) (start before header body next : Lines)
    (test : Option Lines) :
    (weave bare).loop l start before header test body next = start ++ (before ++ match test with
      | some test => whileText l.condition l.next l.note.head test body next
      | none => doText bare l.condition l.next l.note.head body next) :=
  rfl

theorem weave_switch (bare : Bool) (d : Dispatch Note) (start selector : Lines)
    (sections : List (Labels × Lines)) :
    (weave bare).switch d start selector sections
      = start ++ (selector ++ switchText d.note.lines (sectionTexts sections)) :=
  rfl

/-- How the code of a block is found in the state. Block 0 stands for none. -/
def loom : Loom (State δ) Lines where
  holds s b k := b ≠ 0 ∧ s.code b = k
  vacant s b := b ≠ 0 ∧ Table.get? s.blocks b = none
  find _ b := some b

section Notes

variable [Dialect δ]

/-- The lines that ask for something in front of a loop or a selection. -/
def hintLines (δ : Type) [Dialect δ] (isLoop : Bool) (hint : ControlHint) : Lines :=
  if hint = 0 then [] else Dialect.attributes δ isLoop hint

/-- The state behind such lines. -/
def State.hinted (s : State δ) (hint : ControlHint) : State δ :=
  if hint = 0 then s else { s with dialect := Dialect.afterAttributes s.dialect }

/-- What stands in front of the first brace of a selection. -/
def State.ifHeader (s : State δ) (location : Location) (condition : Id) (hint : ControlHint) :
    Lines :=
  s.mark location ++ hintLines δ false hint ++ [ifLine (s.namer.name condition)]

/-- What stands in front of the first brace of a switch statement. -/
def State.switchHeader (s : State δ) (location : Location) (selector : Id) (hint : ControlHint) :
    Lines :=
  s.mark location ++ hintLines δ false hint ++ [switchLine (s.namer.name selector)]

/-- What stands in front of a loop, and the name of its condition. -/
def State.loopNote (s : State δ) (location : Location) (condition conditionBlock : Id)
    (hint : ControlHint) : Note where
  lines := (s.hinted hint).mark location ++ hintLines δ true hint
  name := if conditionBlock = 0 ∨ condition ≠ 0 then s.namer.name condition else "true"

/-- The lines that are new in the current block, behind some others. -/
def newLines (g g' : Generator (State δ)) (others : Nat := 0) : Lines :=
  (g'.target.code g.currentBlock).drop ((g.target.code g.currentBlock).length + others)

/-- What is noted of a request. -/
def observe (r : Request) (g g' : Generator (State δ)) : Note :=
  match r with
  | .emitIf location condition _ _ _ hint => { lines := g.target.ifHeader location condition hint }
  | .emitSwitch location selector _ _ _ hint =>
    { lines := g.target.switchHeader location selector hint }
  | .emitLoop location condition _ _ conditionBlock _ _ hint =>
    g.target.loopNote location condition conditionBlock hint
  | .emitPhi _ _ conditionBlock .. =>
    { lines := newLines g g' (g.target.code conditionBlock).length }
  | _ => { lines := newLines g g' }

end Notes

/-- What the lines in front of a construct depend on. -/
def State.voice (s : State δ) : δ × Bool × Namer :=
  (s.dialect, s.debugInfo, s.namer)

/-- Whether a function that is generated still is, and nothing was written outside of it. -/
def Inside (g g' : Generator (State δ)) : Prop :=
  g.target.inFunction = true → g'.target.inFunction = true
    ∧ g'.target.globals = g.target.globals

theorem Inside.trans {g g₁ g' : Generator (State δ)} (h : Inside g g₁) (h' : Inside g₁ g') :
    Inside g g' :=
  fun hin => ⟨(h' (h hin).1).1, (h' (h hin).1).2.trans (h hin).2⟩

/-- Whether some blocks were taken, and lines were added to the current one. -/
structure Changes (taken : List Id) (ls : Lines) (g g' : Generator (State δ)) : Prop where
  current : g'.currentBlock = g.currentBlock
  last : g'.lastBlock = g.lastBlock
  inside : Inside g g'
  kept : ∀ b ∉ g.currentBlock :: taken, Table.get? g'.target.blocks b
    = Table.get? g.target.blocks b
  gone : ∀ b ∈ taken, b ≠ g.currentBlock → Table.get? g'.target.blocks b = none
  code : g.currentBlock ≠ 0 → g.currentBlock ∉ taken →
    g'.target.code g.currentBlock = g.target.code g.currentBlock ++ ls

namespace Changes

variable {taken more : List Id} {ls ms : Lines} {g g₁ g' : Generator (State δ)}

/-- Nothing that matters here has changed. -/
theorem of_eq (hcurrent : g'.currentBlock = g.currentBlock) (hlast : g'.lastBlock = g.lastBlock)
    (hfunction : g'.target.inFunction = g.target.inFunction)
    (hglobals : g'.target.globals = g.target.globals)
    (hblocks : g'.target.blocks = g.target.blocks) : Changes [] [] g g' where
  current := hcurrent
  last := hlast
  inside hin := ⟨hfunction.trans hin, hglobals⟩
  kept _ _ := by rw [hblocks]
  gone := nofun
  code _ _ := by rw [State.code, hblocks, List.append_nil, State.code]

theorem trans (h : Changes taken ls g g₁) (h' : Changes more ms g₁ g') :
    Changes (taken ++ more) (ls ++ ms) g g' where
  current := h'.current.trans h.current
  last := h'.last.trans h.last
  inside := h.inside.trans h'.inside
  kept b hb := by
    simp only [List.mem_cons, List.mem_append, not_or] at hb
    rw [h'.kept b (by simp [h.current, hb]), h.kept b (by simp [hb])]
  gone b hb hne := by
    by_cases hmore : b ∈ more
    · exact h'.gone b hmore (h.current.symm ▸ hne)
    · rw [h'.kept b (by simp [h.current, hne, hmore])]
      exact h.gone b ((List.mem_append.mp hb).resolve_right hmore) hne
  code hg hnot := by
    simp only [List.mem_append, not_or] at hnot
    have hcode := h'.code (h.current.symm ▸ hg) (h.current.symm ▸ hnot.2)
    rw [h.current, h.code hg hnot.1, List.append_assoc] at hcode
    exact hcode

/-- The lines of a block that is neither current nor taken. -/
theorem code_kept (h : Changes taken ls g g') {b : Id} (hb : b ∉ g.currentBlock :: taken) :
    g'.target.code b = g.target.code b :=
  State.code_congr (h.kept b hb)

theorem keeps (h : Changes taken ls g g') :
    loom.Keeps (g.currentBlock :: taken) g.target g'.target :=
  fun b hb => ⟨fun _ hk => ⟨hk.1, (h.code_kept hb).trans hk.2⟩,
    fun hvacant => ⟨hvacant.1, (h.kept b hb).trans hvacant.2⟩⟩

theorem holds (h : Changes taken ls g g') (hnot : g.currentBlock ∉ taken) {k : Lines}
    (hk : loom.holds g.target g.currentBlock k) : loom.holds g'.target g.currentBlock (k ++ ls) :=
  ⟨hk.1, by rw [h.code hk.1 hnot, hk.2]⟩

theorem holds_taken (h : Changes taken ls g g') {b : Id} (hb : b ∈ taken)
    (hne : b ≠ g.currentBlock) (hzero : b ≠ 0) :
    loom.holds g'.target b [] :=
  ⟨hzero, by rw [State.code, h.gone b hb hne]; rfl⟩

end Changes

theorem Writes.changes {g g' : Generator (State δ)} (h : Writes g g') :
    ∃ new, Unmarked new ∧ Changes [] new g g' := by
  obtain ⟨new, hnew, hcode⟩ := h.code
  exact ⟨new, hnew, h.current, h.last, fun hin => ⟨h.inFunction.trans hin, h.inside hin⟩,
    fun b hb => h.others b (by simpa using hb), nofun, fun _ _ => hcode⟩

theorem newLines_of_changes {taken : List Id} {old new : Lines} {g g' : Generator (State δ)}
    (h : Changes taken (old ++ new) g g') (hg : g.currentBlock ≠ 0)
    (hnot : g.currentBlock ∉ taken) :
    newLines g g' old.length = new := by
  rw [newLines, h.code hg hnot, ← List.append_assoc, ← List.length_append, List.drop_left]

section Voice

variable [Dialect δ] {s s' : State δ}

omit [Dialect δ] in
theorem voice_eq (h : s'.voice = s.voice) :
    s'.dialect = s.dialect ∧ s'.debugInfo = s.debugInfo ∧ s'.namer = s.namer := by
  simpa only [State.voice, Prod.mk.injEq] using h

theorem mark_congr (h : s'.voice = s.voice) (location : Location) :
    s'.mark location = s.mark location := by
  obtain ⟨hdialect, hdebug, -⟩ := voice_eq h
  rw [State.mark, State.mark, hdialect, hdebug]

theorem voice_hinted (h : s'.voice = s.voice) (hint : ControlHint) :
    (s'.hinted hint).voice = (s.hinted hint).voice := by
  obtain ⟨hdialect, hdebug, hnamer⟩ := voice_eq h
  unfold State.hinted
  split
  · exact h
  · simp only [State.voice, hdialect, hdebug, hnamer]

theorem ifHeader_congr (h : s'.voice = s.voice) (location : Location) (condition : Id)
    (hint : ControlHint) :
    s'.ifHeader location condition hint = s.ifHeader location condition hint := by
  rw [State.ifHeader, State.ifHeader, mark_congr h, (voice_eq h).2.2]

theorem switchHeader_congr (h : s'.voice = s.voice) (location : Location) (selector : Id)
    (hint : ControlHint) :
    s'.switchHeader location selector hint = s.switchHeader location selector hint := by
  rw [State.switchHeader, State.switchHeader, mark_congr h, (voice_eq h).2.2]

theorem loopNote_congr (h : s'.voice = s.voice) (location : Location)
    (condition conditionBlock : Id) (hint : ControlHint) :
    s'.loopNote location condition conditionBlock hint
      = s.loopNote location condition conditionBlock hint := by
  rw [State.loopNote, State.loopNote, mark_congr (voice_hinted h hint), (voice_eq h).2.2]

end Voice

section Steps

variable {g g' : Generator (State δ)}

/-- Whether some blocks were taken, and nothing else was done. -/
structure Takes (taken : List Id) (g g' : Generator (State δ)) : Prop where
  changes : Changes taken [] g g'
  voice : g'.target.voice = g.target.voice

theorem Takes.trans {taken more : List Id} {g₁ : Generator (State δ)} (h : Takes taken g g₁)
    (h' : Takes more g₁ g') :
    Takes (taken ++ more) g g' :=
  ⟨h.changes.trans h'.changes, h'.voice.trans h.voice⟩

theorem take_eq_ok {id : Id} {ls : Lines} (h : take id g = .ok (ls, g')) :
    ls = g.target.code id
      ∧ g' = { g with target :=
                        { g.target with
                      blocks := g.target.blocks.filter fun e => e.1 ≠ id } } := by
  obtain ⟨_, _, htarget, h⟩ := bind_eq_ok.mp h
  obtain ⟨rfl, rfl⟩ := getTarget_eq_ok.mp htarget
  obtain ⟨_, _, hmodify, h⟩ := bind_eq_ok.mp h
  obtain rfl := modifyTarget_eq_ok.mp hmodify
  obtain ⟨rfl, rfl⟩ := pure_eq_ok.mp h
  exact ⟨rfl, rfl⟩

theorem take_spec {id : Id} {ls : Lines} (h : take id g = .ok (ls, g')) :
    ls = g.target.code id ∧ Takes [id] g g' := by
  obtain ⟨rfl, rfl⟩ := take_eq_ok h
  have hget (b : Id) := Table.get?_filter_ne g.target.blocks id b
  refine ⟨rfl, ⟨rfl, rfl, fun hin => ⟨hin, rfl⟩, fun b hb => ?_, fun b hb _ => ?_,
    fun _ hnot => ?_⟩, rfl⟩
  · exact (hget b).trans (if_neg (by simp_all))
  · exact (hget b).trans (if_pos (List.mem_singleton.mp hb))
  · rw [List.append_nil]
    exact State.code_congr ((hget _).trans (if_neg (by simpa using hnot)))

theorem write_spec {ls : Lines} {u : Unit} (h : write ls g = .ok (u, g')) : Changes [] ls g g' := by
  by_cases hg : g.currentBlock = 0
  · have hinside : g'.currentBlock = g.currentBlock ∧ g'.lastBlock = g.lastBlock ∧ Inside g g'
        ∧ g'.target.blocks = g.target.blocks := by
      obtain ⟨-, rfl⟩ | ⟨hout, h⟩ := write_of_none h hg
      · exact ⟨rfl, rfl, fun hin => ⟨hin, rfl⟩, rfl⟩
      · obtain rfl := modify_eq_ok.mp h
        exact ⟨rfl, rfl, fun hin => absurd (hout.symm.trans hin) Bool.false_ne_true, rfl⟩
    obtain ⟨hcurrent, hlast, hinside, hblocks⟩ := hinside
    exact ⟨hcurrent, hlast, hinside, fun _ _ => by rw [hblocks], nofun,
      fun hne => absurd hg hne⟩
  · obtain rfl := write_of_block h hg
    exact ⟨rfl, rfl, fun hin => ⟨hin, rfl⟩,
      fun b hb => written_others ls g (by simpa using hb), nofun, fun _ _ => written_current ls g⟩

theorem write_nextId {ls : Lines} {u : Unit} (h : write ls g = .ok (u, g')) :
    g'.nextId = g.nextId := by
  by_cases hg : g.currentBlock = 0
  · obtain ⟨-, rfl⟩ | ⟨-, h⟩ := write_of_none h hg
    · rfl
    · exact modify_eq_ok.mp h ▸ rfl
  · exact write_of_block h hg ▸ rfl

theorem nameOf_spec {id : Id} {name : String} (h : nameOf id g = .ok (name, g')) :
    name = g.target.namer.name id ∧ g' = g := by
  obtain ⟨_, _, htarget, h⟩ := bind_eq_ok.mp h
  obtain ⟨rfl, rfl⟩ := getTarget_eq_ok.mp htarget
  obtain ⟨rfl, rfl⟩ := pure_eq_ok.mp h
  exact ⟨rfl, rfl⟩

/-- Whether nothing but the language's own state has changed. -/
structure Speaks (g g' : Generator (State δ)) : Prop where
  changes : Changes [] [] g g'
  namer : g'.target.namer = g.target.namer

theorem Speaks.trans {g₁ : Generator (State δ)} (h : Speaks g g₁) (h' : Speaks g₁ g') :
    Speaks g g' :=
  ⟨h.changes.trans h'.changes, h'.namer.trans h.namer⟩

variable [Dialect δ]

omit [Dialect δ] in
theorem speaks_of_target {s : State δ} (hs : ∃ dialect, s = { g.target with dialect }) :
    Speaks g { g with target := s } := by
  obtain ⟨dialect, rfl⟩ := hs
  exact ⟨.of_eq rfl rfl rfl rfl rfl, rfl⟩

theorem attributeLines_spec {isLoop : Bool} {hint : ControlHint} {ls : Lines}
    (h : attributeLines isLoop hint g = .ok (ls, g')) :
    ls = hintLines δ isLoop hint ∧ g' = { g with target := g.target.hinted hint }
      ∧ Speaks g g' := by
  unfold hintLines State.hinted
  obtain ⟨hnone, h⟩ | ⟨hsome, h⟩ := ite_eq_ok.mp h
  · obtain ⟨rfl, rfl⟩ := pure_eq_ok.mp h
    rw [if_pos hnone, if_pos hnone]
    exact ⟨rfl, rfl, speaks_of_target ⟨_, rfl⟩⟩
  · obtain ⟨_, _, hmodify, h⟩ := bind_eq_ok.mp h
    obtain rfl := modifyTarget_eq_ok.mp hmodify
    obtain ⟨rfl, rfl⟩ := pure_eq_ok.mp h
    rw [if_neg hsome, if_neg hsome]
    exact ⟨rfl, rfl, speaks_of_target ⟨_, rfl⟩⟩

theorem speaks_locationLines {location : Location} {ls : Lines}
    (h : locationLines location g = .ok (ls, g')) :
    ls = g.target.mark location ∧ Speaks g g' := by
  obtain ⟨rfl, rfl⟩ := locationLines_spec h
  refine ⟨rfl, speaks_of_target ?_⟩
  unfold State.marked
  split <;> exact ⟨_, rfl⟩

theorem selectionLines_spec {location : Location} {hint : ControlHint} {ls : Lines}
    (h : selectionLines location hint g = .ok (ls, g')) :
    ls = g.target.mark location ++ hintLines δ false hint ∧ Speaks g g' := by
  obtain ⟨mark, g₁, hmark, h⟩ := bind_eq_ok.mp h
  obtain ⟨attributes, g₂, hattributes, h⟩ := bind_eq_ok.mp h
  obtain ⟨rfl, hspeaks⟩ := speaks_locationLines hmark
  obtain ⟨rfl, -, hspeaks'⟩ := attributeLines_spec hattributes
  obtain ⟨rfl, rfl⟩ := pure_eq_ok.mp h
  exact ⟨rfl, hspeaks.trans hspeaks'⟩

theorem loopHead_spec {location : Location} {condition conditionBlock : Id} {hint : ControlHint}
    {head : LoopHead}
    (h : loopHead location condition (decide (conditionBlock = 0)) hint g = .ok (head, g')) :
    head = (g.target.loopNote location condition conditionBlock hint).head ∧ Speaks g g' := by
  obtain ⟨attributes, g₁, hattributes, h⟩ := bind_eq_ok.mp h
  obtain ⟨mark, g₂, hmark, h⟩ := bind_eq_ok.mp h
  obtain ⟨rfl, hg₁, hspeaks⟩ := attributeLines_spec hattributes
  obtain ⟨rfl, hspeaks'⟩ := speaks_locationLines hmark
  have hboth := hspeaks.trans hspeaks'
  subst hg₁
  simp only [ite_eq_ok, Bool.or_eq_true, decide_eq_true_eq] at h
  obtain ⟨hnamed, h⟩ | ⟨hnamed, h⟩ := h
  · obtain ⟨name, g₃, hname, h⟩ := bind_eq_ok.mp h
    obtain ⟨rfl, rfl⟩ := nameOf_spec hname
    obtain ⟨rfl, rfl⟩ := pure_eq_ok.mp h
    rw [State.loopNote, if_pos hnamed, hboth.namer]
    exact ⟨rfl, hboth⟩
  · obtain ⟨rfl, rfl⟩ := pure_eq_ok.mp h
    rw [State.loopNote, if_neg hnamed]
    exact ⟨rfl, hboth⟩

end Steps

section Constructs

variable [Dialect δ] {g g' : Generator (State δ)} {u : Unit}

theorem emitIf_spec {location : Location} {condition conditionBlock trueBlock falseBlock : Id}
    {hint : ControlHint}
    (h : emitIf location condition conditionBlock trueBlock falseBlock hint g = .ok (u, g'))
    (hne : [conditionBlock, falseBlock, trueBlock, g.currentBlock].Nodup) :
    Changes [trueBlock, falseBlock, conditionBlock] (g.target.code conditionBlock
      ++ ifText (g.target.ifHeader location condition hint) (g.target.code trueBlock)
        (g.target.code falseBlock)) g g' := by
  obtain ⟨yes, g₁, hyes, h⟩ := bind_eq_ok.mp h
  obtain ⟨rfl, htakes₁⟩ := take_spec hyes
  obtain ⟨no, g₂, hno, h⟩ := bind_eq_ok.mp h
  obtain ⟨rfl, htakes₂⟩ := take_spec hno
  have htakes₂ := htakes₁.trans htakes₂
  obtain ⟨test, g₃, htest, h⟩ := bind_eq_ok.mp h
  obtain ⟨rfl, htakes₃⟩ := take_spec htest
  have htakes₃ := htakes₂.trans htakes₃
  obtain ⟨header, g₄, hheader, h⟩ := bind_eq_ok.mp h
  obtain ⟨rfl, hspeaks⟩ := selectionLines_spec hheader
  obtain ⟨name, g₅, hname, hwrite⟩ := bind_eq_ok.mp h
  obtain ⟨rfl, rfl⟩ := nameOf_spec hname
  simp only [List.nodup_cons, List.mem_cons, List.not_mem_nil, not_or] at hne
  have hchanges := htakes₃.changes.trans (hspeaks.changes.trans (write_spec hwrite))
  rw [hspeaks.namer, htakes₂.changes.code_kept (by simp_all),
    htakes₁.changes.code_kept (by simp_all),
    ← State.ifHeader, ifHeader_congr htakes₃.voice] at hchanges
  exact hchanges

omit [Dialect δ] in
/-- A branch is taken unless it is no block of its own. -/
theorem takeBranch_spec {block conditionBlock : Id} {ls : Lines}
    (h : takeBranch block conditionBlock g = .ok (ls, g')) :
    ∃ taken ⊆ [block], conditionBlock ∉ taken ∧ Takes taken g g' := by
  simp only [takeBranch, ite_eq_ok, pure_eq_ok] at h
  obtain ⟨-, -, rfl⟩ | ⟨hne, h⟩ := h
  · exact ⟨[], List.nil_subset _, List.not_mem_nil, .of_eq rfl rfl rfl rfl rfl, rfl⟩
  · exact ⟨[block], List.Subset.refl _, by simpa using Ne.symm hne, (take_spec h).2⟩

theorem typeName_spec {role : TypeRole} {t : Ty} {name : String}
    (h : typeName role t g = .ok (name, g')) : g' = g := by
  unfold typeName at h
  cases hbase : t.base
    <;> simp only [hbase, bind_eq_ok, throw_eq_ok, false_and, exists_false, pure_eq_ok] at h
  all_goals obtain ⟨_, _, hname, -, rfl⟩ := h
  all_goals first
    | exact hname.2.symm
    | exact (nameOf_spec hname).2

omit [Dialect δ] in
theorem makeId_changes {id : Id} (h : makeId g = .ok (id, g')) : Changes [] [] g g' := by
  obtain ⟨-, rfl⟩ := Prod.mk.inj (Except.ok.inj h)
  exact .of_eq rfl rfl rfl rfl rfl

omit [Dialect δ] in
/-- A line that names a value leaves everything as it was. -/
theorem assignment_spec {value : Id} {f : String → Lines} {ls : Lines}
    (h : ((nameOf value >>= fun name => pure (f name)) : SourceM δ Lines) g = .ok (ls, g')) :
    g' = g := by
  obtain ⟨name, g₁, hname, h⟩ := bind_eq_ok.mp h
  obtain ⟨-, rfl⟩ := nameOf_spec hname
  exact (pure_eq_ok.mp h).2.symm

theorem emitPhi_spec {location : Location}
    {condition conditionBlock trueValue trueBlock falseValue falseBlock id : Id} {t : Ty}
    (h : emitPhi location condition conditionBlock trueValue trueBlock falseValue falseBlock t g
      = .ok (id, g')) (hne : conditionBlock ≠ g.currentBlock) :
    ∃ taken new, taken ⊆ [trueBlock, falseBlock, conditionBlock] ∧ conditionBlock ∈ taken
      ∧ Changes taken (g.target.code conditionBlock ++ new) g g' := by
  obtain ⟨yes, g₁, hyes, h⟩ := bind_eq_ok.mp h
  obtain ⟨first, hfirst, hnot, htakes₁⟩ := takeBranch_spec hyes
  obtain ⟨no, g₂, hno, h⟩ := bind_eq_ok.mp h
  obtain ⟨second, hsecond, hnot', htakes₂⟩ := takeBranch_spec hno
  obtain ⟨_, g₃, hid, h⟩ := bind_eq_ok.mp h
  have hchanges₃ := (htakes₁.trans htakes₂).changes.trans (makeId_changes hid)
  obtain ⟨test, g₄, htest, h⟩ := bind_eq_ok.mp h
  obtain ⟨rfl, htakes₄⟩ := take_spec htest
  -- What is written names the type, the condition and both values, which leaves the code alone.
  obtain ⟨type, g₅, htype, h⟩ := bind_eq_ok.mp h
  have htype := typeName_spec htype
  obtain ⟨mark, g₆, hmark, h⟩ := bind_eq_ok.mp h
  obtain ⟨-, hspeaks⟩ := speaks_locationLines hmark
  obtain ⟨name, g₇, hname, h⟩ := bind_eq_ok.mp h
  obtain ⟨-, hname⟩ := nameOf_spec hname
  obtain ⟨yesValue, g₈, hyesValue, h⟩ := bind_eq_ok.mp h
  have hyesValue := assignment_spec hyesValue
  obtain ⟨noValue, g₉, hnoValue, h⟩ := bind_eq_ok.mp h
  have hnoValue := assignment_spec hnoValue
  obtain ⟨_, g₁₀, hwrite, h⟩ := bind_eq_ok.mp h
  obtain ⟨rfl, rfl⟩ := pure_eq_ok.mp h
  rw [htype] at hspeaks
  rw [hnoValue, hyesValue, hname] at hwrite
  have hchanges :=
    (hchanges₃.trans htakes₄.changes).trans (hspeaks.changes.trans (write_spec hwrite))
  rw [hchanges₃.code_kept (by simp [hne, hnot, hnot'])] at hchanges
  refine ⟨_, _, ?_, by simp, hchanges⟩
  intro b hb
  simp only [List.append_nil, List.mem_append, List.mem_singleton] at hb
  obtain (hb | hb) | hb := hb
  · simp [List.mem_singleton.mp (hfirst hb)]
  · simp [List.mem_singleton.mp (hsecond hb)]
  · simp [hb]

theorem emitLoop_spec {location : Location}
    {condition before header conditionBlock body continueBlock : Id} {hint : ControlHint}
    (h : emitLoop location condition before header conditionBlock body continueBlock hint g
      = .ok (u, g')) (hne : [before, header, continueBlock, body, g.currentBlock].Nodup)
    (htest : conditionBlock ≠ 0 →
      conditionBlock ∉ [before, header, continueBlock, body, g.currentBlock]) :
    Changes ([body, continueBlock, header, before] ++ if conditionBlock = 0 then []
      else [conditionBlock]) (g.target.code before ++ if conditionBlock = 0 then
          doText (Dialect.movesBareDeclarations δ) condition continueBlock
            (g.target.loopNote location condition conditionBlock hint).head (g.target.code body)
            (g.target.code continueBlock)
        else whileText condition continueBlock
          (g.target.loopNote location condition conditionBlock hint).head
          (g.target.code conditionBlock) (g.target.code body) (g.target.code continueBlock)) g
      g' := by
  obtain ⟨bodyCode, g₁, hbody, h⟩ := bind_eq_ok.mp h
  obtain ⟨rfl, htakes₁⟩ := take_spec hbody
  obtain ⟨next, g₂, hnext, h⟩ := bind_eq_ok.mp h
  obtain ⟨rfl, htakes₂⟩ := take_spec hnext
  obtain ⟨_, g₃, hheader, h⟩ := bind_eq_ok.mp h
  obtain ⟨-, htakes₃⟩ := take_spec hheader
  have htakes₃ := (htakes₁.trans htakes₂).trans htakes₃
  obtain ⟨first, g₄, hbefore, h⟩ := bind_eq_ok.mp h
  obtain ⟨rfl, htakes₄⟩ := take_spec hbefore
  have htakes₄ := htakes₃.trans htakes₄
  obtain ⟨_, g₅, hhead, h⟩ := bind_eq_ok.mp h
  obtain ⟨rfl, hspeaks⟩ := loopHead_spec hhead
  simp only [List.nodup_cons, List.mem_cons, List.not_mem_nil, not_or] at hne htest
  rw [htakes₃.changes.code_kept (by simp_all), htakes₁.changes.code_kept (by simp_all),
    loopNote_congr htakes₄.voice] at h
  have hchanges := htakes₄.changes.trans hspeaks.changes
  by_cases hzero : conditionBlock = 0
  · rw [if_pos (by simpa using hzero)] at h
    rw [if_pos hzero, if_pos hzero]
    exact hchanges.trans (write_spec h)
  · rw [if_neg (by simpa using hzero)] at h
    rw [if_neg hzero, if_neg hzero]
    obtain ⟨test, g₆, htake, hwrite⟩ := bind_eq_ok.mp h
    obtain ⟨rfl, htakes₆⟩ := take_spec htake
    rw [hchanges.code_kept (by simp_all)] at hwrite
    exact hchanges.trans (htakes₆.changes.trans (write_spec hwrite))

/-- A further value of the last section. -/
def addCase (groups : Table Id (List UInt32)) (c : UInt32 × Id) : Table Id (List UInt32) :=
  Table.set c.2 ((Table.get? groups c.2).getD [] ++ [c.1]) groups

theorem foldl_section {groups : Table Id (List UInt32)} {block : Id}
    (hnew : block ∉ groups.map (·.1)) (literals : List UInt32) :
    (literals.map fun value => (value, block)).foldl addCase groups
      = if literals = [] then groups else groups ++ [(block, literals)] := by
  have hmore (rest values : List UInt32) :
      (rest.map fun value => (value, block)).foldl addCase (groups ++ [(block, values)])
      = groups ++ [(block, values ++ rest)] := by
    induction rest generalizing values with
    | nil => simp
    | cons value rest ih =>
      have hadd : addCase (groups ++ [(block, values)]) (value, block)
          = groups ++ [(block, values ++ [value])] := by
        rw [addCase, Table.get?_append hnew, Table.set_append hnew]
        simp [Table.set, Table.get?]
      rw [List.map_cons, List.foldl_cons, hadd, ih, List.append_assoc, List.singleton_append]
  cases literals with
  | nil => rfl
  | cons value literals =>
    have hadd : addCase groups (value, block) = groups ++ [(block, [value])] := by
      rw [addCase, Table.get?_of_not_mem hnew]
      conv => lhs; rw [← List.append_nil groups]
      rw [Table.set_append hnew]
      simp [Table.set]
    rw [List.map_cons, List.foldl_cons, hadd, hmore, if_neg (List.cons_ne_nil _ _),
      List.singleton_append]

/-- The sections that have case labels, in their order. -/
theorem groupCases_sections {labels : List Labels} (hne : (labels.map (·.ended)).Nodup)
    (hzero : ∀ l ∈ labels, l.ended ≠ 0) :
    groupCases (Labels.cases labels)
      = (labels.filter (·.literals ≠ [])).map fun l => (l.ended, l.literals) := by
  have hall : (Labels.cases labels).filter (·.2 ≠ 0) = Labels.cases labels := by
    refine List.filter_eq_self.mpr fun c hc => ?_
    obtain ⟨l, hl, hc⟩ := List.mem_flatMap.mp hc
    obtain ⟨value, -, rfl⟩ := List.mem_map.mp hc
    exact decide_eq_true (hzero l hl)
  suffices h : ∀ groups :
      Table Id (List UInt32), (groups.map (·.1) ++ labels.map (·.ended)).Nodup →
      (Labels.cases labels).foldl addCase groups
        = groups ++ (labels.filter (·.literals ≠ [])).map fun l => (l.ended, l.literals) by
    rw [groupCases, hall]
    exact h [] hne
  clear hne hzero hall
  induction labels with
  | nil => exact fun groups _ => (List.append_nil groups).symm
  | cons l labels ih =>
    intro groups hne
    have hnew : l.ended ∉ groups.map (·.1) :=
      fun h => (List.nodup_append.mp hne).2.2 _ h _ List.mem_cons_self rfl
    rw [Labels.cases, List.flatMap_cons, List.foldl_append, foldl_section hnew]
    by_cases hnone : l.literals = []
    · rw [if_pos hnone, List.filter_cons_of_neg (by simpa using hnone)]
      exact ih groups (hne.sublist ((List.sublist_cons_self _ _).append_left _))
    · rw [if_neg hnone, List.filter_cons_of_pos (by simpa using hnone)]
      refine (ih _ (by simpa using hne)).trans ?_
      rw [List.map_cons, List.append_assoc, List.singleton_append]

omit [Dialect δ] in
theorem takeSections_spec {defaultLabel : Id} {groups : List (Id × List UInt32)} {ls : List Lines}
    (h : groups.mapM (takeSection defaultLabel) g = .ok (ls, g')) (hne : (groups.map (·.1)).Nodup)
    (hcurrent : g.currentBlock ∉ groups.map (·.1)) :
    ls = groups.map (fun group =>
      sectionText (String.join (group.2.map caseLabel) ++ if group.1 = defaultLabel then defaultText
        else "") (g.target.code group.1)) ∧ Takes (groups.map (·.1)) g g' := by
  induction groups generalizing g ls with
  | nil =>
    rw [List.mapM_nil] at h
    obtain ⟨rfl, rfl⟩ := pure_eq_ok.mp h
    exact ⟨rfl, .of_eq rfl rfl rfl rfl rfl, rfl⟩
  | cons group groups ih =>
    rw [List.mapM_cons] at h
    obtain ⟨first, g₁, hfirst, h⟩ := bind_eq_ok.mp h
    obtain ⟨rest, g₂, hrest, h⟩ := bind_eq_ok.mp h
    obtain ⟨rfl, rfl⟩ := pure_eq_ok.mp h
    obtain ⟨code, g₃, htake, hfirst⟩ := bind_eq_ok.mp hfirst
    obtain ⟨rfl, rfl⟩ := pure_eq_ok.mp hfirst
    obtain ⟨rfl, htakes⟩ := take_spec htake
    obtain ⟨hnot, hne⟩ := List.nodup_cons.mp hne
    have hothers := List.mem_cons.not.mp hcurrent
    rw [not_or] at hothers
    obtain ⟨rfl, htakes'⟩ := ih hrest hne (htakes.changes.current ▸ hothers.2)
    refine ⟨List.cons_inj_right _ |>.mpr (List.map_congr_left fun other hother => ?_),
      htakes.trans htakes'⟩
    rw [htakes.changes.code_kept]
    simp only [List.mem_cons, List.not_mem_nil, or_false, not_or]
    exact ⟨fun heq => hothers.2 (List.mem_map.mpr ⟨other, hother, heq⟩),
      fun heq => hnot (List.mem_map.mpr ⟨other, hother, heq⟩)⟩

omit [Dialect δ] in
/-- The section of the default label is taken, if it has no case labels. -/
theorem takeDefault_spec {α κ : Type} {merge defaultLabel : Id} {sections : List (Labels × κ)}
    {a : α} {k : List Lines → SourceM δ α}
    (hapart : Labels.AreApart merge defaultLabel sections) (hcurrent : g.currentBlock = merge)
    (h : (if defaultLabel ≠ 0
      && !(sections.filter (·.1.literals ≠ [])).any (·.1.ended = defaultLabel)
      && defaultLabel ≠ g.currentBlock then
          take defaultLabel >>= fun code => k [sectionText defaultText code]
        else k []) g = .ok (a, g')) :
    ∃ g₁, ∃ taken ⊆ sections.map (·.1.ended), Takes taken g g₁
      ∧ k ((sections.filter fun s => s.1.literals = [] ∧ s.1.isDefault).map fun s =>
        sectionText defaultText (g.target.code s.1.ended)) g₁ = .ok (a, g') := by
  have hnothing : ∃ taken ⊆ sections.map (·.1.ended), Takes taken g g :=
    ⟨[], List.nil_subset _, .of_eq rfl rfl rfl rfl rfl, rfl⟩
  rw [Labels.filter_bareDefault]
  -- Without a default label its block is the merge block. With one, its section may have been
  -- taken already for its case labels.
  obtain ⟨hnone, rfl⟩ | ⟨c, hone, rfl⟩ := hapart.default_cases
  · rw [if_neg (by simp [hcurrent])] at h
    rw [hnone]
    obtain ⟨taken, hsub, htakes⟩ := hnothing
    exact ⟨g, taken, hsub, htakes, h⟩
  · have hc : c ∈ sections :=
      (List.mem_filter.mp (hone ▸ List.mem_singleton.mpr rfl : c
        ∈ sections.filter (·.1.isDefault))).1
    have hcovered : (sections.filter (·.1.literals ≠ [])).any (·.1.ended = c.1.ended)
        = decide (c.1.literals ≠ []) := by
      rw [Bool.eq_iff_iff, decide_eq_true_eq, ← hapart.ended_mem_labelled hc]
      simp only [List.any_eq_true, decide_eq_true_eq, List.mem_map]
    have hother : c.1.ended ≠ g.currentBlock := hcurrent ▸ hapart.ended_ne_merge hc
    rw [hcovered] at h
    rw [hone]
    by_cases hliterals : c.1.literals = []
    · rw [if_pos (by simp [hliterals, hapart.ended_ne c hc, hother])] at h
      obtain ⟨code, g₁, htake, h⟩ := bind_eq_ok.mp h
      obtain ⟨rfl, htakes⟩ := take_spec htake
      rw [List.filter_cons_of_pos (by simpa using hliterals)]
      refine ⟨g₁, _, ?_, htakes, h⟩
      exact List.cons_subset.mpr ⟨List.mem_map.mpr ⟨c, hc, rfl⟩, List.nil_subset _⟩
    · rw [if_neg (by simp [hliterals])] at h
      rw [List.filter_cons_of_neg (by simpa using hliterals)]
      obtain ⟨taken, hsub, htakes⟩ := hnothing
      exact ⟨g, taken, hsub, htakes, h⟩

omit [Dialect δ] in
/-- The sections with case labels, as they are written from the code of their blocks. -/
theorem labelledTexts_eq {merge defaultLabel : Id} {sections : List (Labels × Lines)}
    {t : State δ} (hapart : Labels.AreApart merge defaultLabel sections)
    (hcode : ∀ s ∈ sections, t.code s.1.ended = s.2) :
    (sections.filter (·.1.literals ≠ [])).map
      (fun s => sectionText (String.join (s.1.literals.map caseLabel)
        ++ if s.1.ended = defaultLabel then defaultText else "") (t.code s.1.ended))
      = (sections.filter (·.1.literals ≠ [])).map fun s => sectionText (labelText s.1) s.2 := by
  refine List.map_congr_left fun s hs => ?_
  have hs := (List.mem_filter.mp hs).1
  simp only [labelText, hcode s hs, hapart.ended_eq_default hs]

omit [Dialect δ] in
/-- A section that has the default label only, as it is written when the others have been taken. -/
theorem defaultTexts_eq {merge defaultLabel : Id} {sections : List (Labels × Lines)}
    (hapart : Labels.AreApart merge defaultLabel sections) (hcurrent : g.currentBlock = merge)
    (hcode : ∀ s ∈ sections, g.target.code s.1.ended = s.2)
    (htakes : Takes ((sections.filter (·.1.literals ≠ [])).map (·.1.ended)) g g') :
    (sections.filter fun s => s.1.literals = [] ∧ s.1.isDefault).map (fun s =>
        sectionText defaultText (g'.target.code s.1.ended))
      = (sections.filter fun s => s.1.literals = [] ∧ s.1.isDefault).map fun s =>
        sectionText (labelText s.1) s.2 := by
  refine List.map_congr_left fun s hs => ?_
  obtain ⟨hs, hkind⟩ := List.mem_filter.mp hs
  obtain ⟨hliterals, hdefault⟩ := of_decide_eq_true hkind
  have hother :
      s.1.ended ∉ g.currentBlock
        :: (sections.filter (·.1.literals ≠ [])).map (·.1.ended) := by
    rw [List.mem_cons, not_or, hapart.ended_mem_labelled hs, not_not, hcurrent]
    exact ⟨hapart.ended_ne_merge hs, hliterals⟩
  rw [htakes.changes.code_kept hother, hcode s hs, labelText, hliterals, if_pos hdefault]
  rfl

theorem emitSwitch_spec {location : Location} {selector selectorBlock merge defaultLabel : Id}
    {hint : ControlHint} {sections : List (Labels × Lines)}
    (h : emitSwitch location selector selectorBlock defaultLabel
      (Labels.cases (sections.map (·.1))) hint g = .ok (u, g')) (hcurrent : g.currentBlock = merge)
    (hapart : Labels.AreApart merge defaultLabel sections)
    (hselector : selectorBlock ∉ merge :: sections.map (·.1.ended))
    (hsections : ∀ s ∈ sections, g.target.code s.1.ended = s.2) :
    ∃ taken ⊆ selectorBlock :: sections.map (·.1.ended),
      Changes taken (g.target.code selectorBlock
      ++ switchText (g.target.switchHeader location selector hint) (sectionTexts sections)) g
        g' := by
  have hgroups : groupCases (Labels.cases (sections.map (·.1)))
      = (sections.filter (·.1.literals ≠ [])).map fun s => (s.1.ended, s.1.literals) := by
    rw [groupCases_sections (by rw [List.map_map]; exact hapart.nodup)
      (by simpa using hapart.ended_ne), List.filter_map, List.map_map]
    rfl
  simp only [emitSwitch, hgroups, List.any_map, pure_bind] at h
  obtain ⟨_, g₁, htake, h⟩ := bind_eq_ok.mp h
  obtain ⟨header, g₂, hheader, h⟩ := bind_eq_ok.mp h
  obtain ⟨lines, g₃, hlabelled, h⟩ := bind_eq_ok.mp h
  obtain ⟨_, _, hget, h⟩ := bind_eq_ok.mp h
  obtain ⟨rfl, rfl⟩ := get_eq_ok.mp hget
  obtain ⟨rfl, htakes⟩ := take_spec htake
  obtain ⟨rfl, hspeaks⟩ := selectionLines_spec hheader
  -- Taking the selector and writing the header leave the code of the sections alone.
  have hchanges₂ := htakes.changes.trans hspeaks.changes
  have hcurrent₂ : g₂.currentBlock = merge := hchanges₂.current.trans hcurrent
  have hcode₂ : ∀ s ∈ sections, g₂.target.code s.1.ended = s.2 := fun s hs => by
    have hmem : s.1.ended ∈ sections.map (·.1.ended) := List.mem_map.mpr ⟨s, hs, rfl⟩
    have hne : s.1.ended ≠ selectorBlock :=
      fun heq => hselector (heq ▸ List.mem_cons_of_mem _ hmem)
    exact (hchanges₂.code_kept (by simp [hcurrent, hapart.ended_ne_merge hs, hne])).trans
      (hsections s hs)
  have hends : (sections.filter (·.1.literals ≠ [])).map (·.1.ended)
      ⊆ sections.map (·.1.ended) :=
    List.map_subset _ (List.filter_subset_self _)
  have hkeys :
      ((sections.filter (·.1.literals ≠ [])).map fun s => (s.1.ended, s.1.literals)).map (·.1)
      = (sections.filter (·.1.literals ≠ [])).map (·.1.ended) := by
    rw [List.map_map]
    rfl
  obtain ⟨rfl, htakes₃⟩ := takeSections_spec hlabelled
    (hkeys ▸ hapart.nodup.sublist (List.filter_sublist.map _))
    (by rw [hkeys, hcurrent₂]; exact fun hmem => (List.nodup_cons.mp hapart.apart).1 (hends hmem))
  rw [hkeys] at htakes₃
  rw [List.map_map] at h
  obtain ⟨g₄, taken, hsub, htakes₄, h⟩ :=
    takeDefault_spec (k := fun last => nameOf selector >>= fun name => write
    (g.target.code selectorBlock
      ++ switchText (g₁.target.mark location ++ hintLines δ false hint ++ [switchLine name])
      ((sections.filter (·.1.literals ≠ [])).map (fun s =>
        sectionText (String.join (s.1.literals.map caseLabel)
        ++ if s.1.ended = defaultLabel then defaultText else "") (g₂.target.code s.1.ended))
        ++ last)))
    hapart (htakes₃.changes.current.trans hcurrent₂) h
  obtain ⟨name, g₅, hname, hwrite⟩ := bind_eq_ok.mp h
  obtain ⟨rfl, rfl⟩ := nameOf_spec hname
  rw [labelledTexts_eq hapart hcode₂, defaultTexts_eq hapart hcurrent₂ hcode₂ htakes₃,
    ← List.map_append, (voice_eq (htakes₃.trans htakes₄).voice).2.2, hspeaks.namer,
    ← State.switchHeader, switchHeader_congr htakes.voice] at hwrite
  have hchanges := (hchanges₂.trans (htakes₃.trans htakes₄).changes).trans (write_spec hwrite)
  refine ⟨_, ?_, hchanges⟩
  simp only [List.append_nil, List.singleton_append]
  exact List.cons_subset_cons _ (List.append_subset.mpr ⟨hends, hsub⟩)

end Constructs

section Ends

variable {g g' : Generator (State δ)} {ended : Id}

/-- Whether the current block was ended, with some lines behind those it had. -/
structure Closes (ls : Lines) (g g' : Generator (State δ)) : Prop where
  block : g'.currentBlock = 0
  last : g'.lastBlock = g.currentBlock
  inside : Inside g g'
  kept : ∀ b ≠ g.currentBlock, Table.get? g'.target.blocks b = Table.get? g.target.blocks b
  code : g.currentBlock ≠ 0 → g'.target.code g.currentBlock = g.target.code g.currentBlock ++ ls

theorem Changes.closes {old ls : Lines} {g₁ : Generator (State δ)} (h : Changes [] old g g₁)
    (h' : Closes ls g₁ g') :
    Closes (old ++ ls) g g' where
  block := h'.block
  last := h'.last.trans h.current
  inside := h.inside.trans h'.inside
  kept b hb := (h'.kept b (h.current.symm ▸ hb)).trans (h.kept b (by simpa using hb))
  code hg := by
    have hcode := h'.code (h.current.symm ▸ hg)
    rw [h.current, h.code hg List.not_mem_nil, List.append_assoc] at hcode
    exact hcode

theorem setBlock_spec {id : Id} (h : setBlock id g = .ok (ended, g')) :
    ended = g.currentBlock ∧ g' = { g with lastBlock := g.currentBlock, currentBlock := id } := by
  simp only [setBlock, bind_eq_ok, get_eq_ok, set_eq_ok, pure_eq_ok] at h
  obtain ⟨_, _, ⟨rfl, rfl⟩, _, _, rfl, rfl, rfl⟩ := h
  exact ⟨rfl, rfl⟩

theorem setBlock_closes (h : setBlock 0 g = .ok (ended, g')) :
    ended = g.currentBlock ∧ Closes [] g g' := by
  obtain ⟨rfl, rfl⟩ := setBlock_spec h
  exact ⟨rfl, rfl, rfl, fun hin => ⟨hin, rfl⟩, fun _ _ => rfl,
    fun _ => (List.append_nil _).symm⟩

theorem endBlock_spec {ls : Lines} (h : endBlock ls g = .ok (ended, g')) :
    ended = g.currentBlock ∧ Closes ls g g' := by
  obtain ⟨_, g₁, hwrite, h⟩ := bind_eq_ok.mp h
  have hchanges := write_spec hwrite
  obtain ⟨rfl, hcloses⟩ := setBlock_closes h
  exact ⟨hchanges.current, List.append_nil ls ▸ hchanges.closes hcloses⟩

theorem leaveOpen_spec (h : leaveOpen g = .ok (ended, g')) (hg : g.currentBlock ≠ 0) :
    ended = g.currentBlock ∧ Closes [] g g' := by
  obtain ⟨_, _, hget, h⟩ := bind_eq_ok.mp h
  obtain ⟨rfl, rfl⟩ := get_eq_ok.mp hget
  rw [if_pos (by simpa [isInBlock] using hg)] at h
  exact setBlock_closes h

/-- A part of a generator that leaves the current block does so if there is one. -/
theorem of_isInBlock {x : SourceM δ Id} (h : (do
      if !(← get).isInBlock then return 0
      x : SourceM δ Id) g = .ok (ended, g')) (hg : g.currentBlock ≠ 0) :
    x g = .ok (ended, g') := by
  obtain ⟨_, _, hget, h⟩ := bind_eq_ok.mp h
  obtain ⟨rfl, rfl⟩ := get_eq_ok.mp hget
  rw [if_neg (by simpa [isInBlock] using hg)] at h
  exact h

theorem leaveAndKill_spec [Literals δ]
    (hliteral : ∀ t c, Writing (Literals.literal t c : SourceM δ String))
    (h : leaveAndKill g = .ok (ended, g')) (hg : g.currentBlock ≠ 0) :
    ∃ new, Unmarked new ∧ ended = g.currentBlock ∧ Closes new g g' := by
  have h := of_isInBlock h hg
  obtain ⟨_, _, htarget, h⟩ := bind_eq_ok.mp h
  obtain ⟨_, _, hget, htarget⟩ := bind_eq_ok.mp htarget
  obtain ⟨rfl, rfl⟩ := get_eq_ok.mp hget
  obtain ⟨rfl, rfl⟩ := pure_eq_ok.mp htarget
  obtain ⟨-, h⟩ | ⟨-, h⟩ := ite_eq_ok.mp h
  · obtain ⟨rfl, hcloses⟩ := endBlock_spec h
    exact ⟨_, inferInstance, rfl, hcloses⟩
  · obtain ⟨value, g₁, hvalue, h⟩ := bind_eq_ok.mp h
    obtain ⟨old, hold, hchanges⟩ := ((hliteral _ _).writes hvalue).changes
    obtain ⟨rfl, hcloses⟩ := endBlock_spec h
    exact ⟨_, inferInstance, hchanges.current, hchanges.closes hcloses⟩

theorem leaveAndReturn_spec {value : Id} (h : leaveAndReturn value g = .ok (ended, g'))
    (hg : g.currentBlock ≠ 0) :
    ∃ new, Unmarked new ∧ ended = g.currentBlock ∧ Closes new g g' := by
  have h := of_isInBlock h hg
  obtain ⟨-, h⟩ | ⟨-, h⟩ := ite_eq_ok.mp h
  · obtain ⟨name, g₁, hname, h⟩ := bind_eq_ok.mp h
    obtain ⟨-, rfl⟩ := nameOf_spec hname
    obtain ⟨rfl, hcloses⟩ := endBlock_spec h
    exact ⟨_, inferInstance, rfl, hcloses⟩
  · obtain ⟨_, _, htarget, h⟩ := bind_eq_ok.mp h
    obtain ⟨_, _, hget, htarget⟩ := bind_eq_ok.mp htarget
    obtain ⟨rfl, rfl⟩ := get_eq_ok.mp hget
    obtain ⟨rfl, rfl⟩ := pure_eq_ok.mp htarget
    obtain ⟨-, h⟩ | ⟨-, h⟩ := ite_eq_ok.mp h
    all_goals
      obtain ⟨rfl, hcloses⟩ := endBlock_spec h
      exact ⟨_, inferInstance, rfl, hcloses⟩

theorem leaveAndBranch_spec {target : Id} {flow : Flow}
    (h : leaveAndBranch target flow g = .ok (ended, g')) :
    (g.currentBlock ≠ 0 → ended = g.currentBlock ∧ Closes (jumpLines target flow) g g')
      ∧ (g.currentBlock = 0 → ended = g.lastBlock ∧ g' = g) := by
  obtain ⟨_, _, hget, h⟩ := bind_eq_ok.mp h
  obtain ⟨rfl, rfl⟩ := get_eq_ok.mp hget
  refine ⟨fun hg => ?_, fun hg => ?_⟩
  · rw [if_neg (by simpa [isInBlock] using hg)] at h
    cases flow <;> exact endBlock_spec h
  · rw [if_pos (by simpa [isInBlock] using hg)] at h
    obtain ⟨_, _, hget, h⟩ := bind_eq_ok.mp h
    obtain ⟨rfl, rfl⟩ := get_eq_ok.mp hget
    obtain ⟨rfl, rfl⟩ := pure_eq_ok.mp h
    exact ⟨rfl, rfl⟩

end Ends

theorem newLines_of_closes {new : Lines} {g g' : Generator (State δ)} (h : Closes new g g')
    (hg : g.currentBlock ≠ 0) :
    newLines g g' = new := by
  rw [newLines, h.code hg, Nat.add_zero, List.drop_left]

theorem newLines_of_writes {g g' : Generator (State δ)} (h : Writes g g') :
    Unmarked (newLines g g') ∧ g'.target.code g.currentBlock
      = g.target.code g.currentBlock ++ newLines g g' := by
  obtain ⟨new, hnew, hcode⟩ := h.code
  rw [newLines, hcode, Nat.add_zero, List.drop_left]
  exact ⟨hnew, rfl⟩

/-- Whether a target generates source text as it is described here. -/
class Textual (δ : Type) [Dialect δ] [Literals δ] [Backend (State δ)] : Prop where
  hints : ∀ isLoop hint, Unmarked (Dialect.attributes δ isLoop hint)
  literal : ∀ t c, Writing (Literals.literal t c : SourceM δ String)
  nextId_le {r : Request} {g g' : Generator (State δ)} {a : r.Answer}
    (h : r.handle g = .ok (a, g')) :
    g.nextId ≤ g'.nextId
  load (e : Expression) (forceNew : Bool) : Writing (Backend.load e forceNew : SourceM δ Id)
  store (e : Expression) (value : Id) : Writing (Backend.store e value : SourceM δ Unit)
  unary (location : Location) (op : UnaryOp) (t : Ty) (value : Id) :
    Writing (Backend.unary location op t value : SourceM δ Id)
  binary (location : Location) (op : BinaryOp) (result operands : Ty) (left right : Id) :
    Writing (Backend.binary location op result operands left right : SourceM δ Id)
  select (location : Location) (t : Ty) (condition yes no : Id) :
    Writing (Backend.select location t condition yes no : SourceM δ Id)
  callIntrinsic (location : Location) (i : Intrinsic) (result : Ty) (args : List Expression) :
    Writing (Backend.callIntrinsic location i result args : SourceM δ Id)
  construct (location : Location) (t : Ty) (args : List Expression) :
    Writing (Backend.construct location t args : SourceM δ Id)
  defineTexture (location : Location) (t : Texture) :
    Writing (Backend.defineTexture location t : SourceM δ Texture)
  defineSampler (location : Location) (s : Sampler) :
    Writing (Backend.defineSampler location s : SourceM δ Sampler)
  defineUniform (location : Location) (u : Uniform) :
    Writing (Backend.defineUniform location u : SourceM δ Id)
  defineEntryPoint {decl : FunctionDecl} {isPixelShader : Bool} {g g' : Generator (State δ)}
    {u : Unit} (h : Backend.defineEntryPoint decl isPixelShader g = .ok (u, g')) : Follows g g'
  isInFunction (g : Generator (State δ)) : Backend.isInFunction g = g.target.inFunction
  finish (g : Generator (State δ)) :
    ∃ front, Backend.finish g = .ok (.text (Lines.render (front ++ g.target.globals.toList)), g)
  constant : Backend.constant (β := State δ) = Source.constantId
  call : Backend.call (β := State δ) = Source.emitCall
  defineStruct : Backend.defineStruct (β := State δ) = Source.defineStruct
  defineVariable : Backend.defineVariable (β := State δ) = Source.defineVariable
  defineFunction : Backend.defineFunction (β := State δ) = Source.defineFunction
  leaveFunction : Backend.leaveFunction (β := State δ) = Source.leaveFunction
  enterBlock : Backend.enterBlock (β := State δ) = Source.enterBlock
  leaveAndKill : Backend.leaveAndKill (β := State δ) = Source.leaveAndKill
  leaveAndReturn : Backend.leaveAndReturn (β := State δ) = Source.leaveAndReturn
  leaveAndSwitch : Backend.leaveAndSwitch (β := State δ) = fun _ _ => Source.leaveOpen
  leaveAndBranch : Backend.leaveAndBranch (β := State δ) = Source.leaveAndBranch
  leaveAndBranchConditional :
    Backend.leaveAndBranchConditional (β := State δ) = fun _ _ _ => Source.leaveOpen
  emitIf : Backend.emitIf (β := State δ) = Source.emitIf
  emitPhi : Backend.emitPhi (β := State δ) = Source.emitPhi
  emitLoop : Backend.emitLoop (β := State δ) = Source.emitLoop
  emitSwitch : Backend.emitSwitch (β := State δ) = Source.emitSwitch

namespace Textual

variable [Dialect δ] [Literals δ] [Backend (State δ)] [hδ : Textual δ]
  {g g' : Generator (State δ)}

include hδ

/-- What a generator writes in front of a construct has no marks. -/
theorem hintLines_unmarked (isLoop : Bool) (hint : ControlHint) :
    Unmarked (hintLines δ isLoop hint) := by
  unfold hintLines
  split
  · infer_instance
  · exact hδ.hints isLoop hint

/-- Plain requests write what belongs to the current block. -/
theorem writing_plain {r : Request} (hr : r.isPlain = true) :
    Writing (r.handle : SourceM δ r.Answer) := by
  have hliteral := hδ.literal
  cases r with
  | isInFunction | findStruct | findTexture | findFunction => exact Writing.andThen fun _ => .pure
  | defineVariable location t name isGlobal init =>
    rw [Request.handle, hδ.defineVariable]
    infer_instance
  | load e forceNew => exact hδ.load e forceNew
  | store e value => exact hδ.store e value
  | constant t c =>
    rw [Request.handle, hδ.constant]
    infer_instance
  | unary location op t value => exact hδ.unary location op t value
  | binary location op result operands left right =>
    exact hδ.binary location op result operands left right
  | select location t condition yes no => exact hδ.select location t condition yes no
  | call location function result args =>
    rw [Request.handle, hδ.call]
    infer_instance
  | callIntrinsic location i result args => exact hδ.callIntrinsic location i result args
  | construct location t args => exact hδ.construct location t args
  | _ => cases hr

/-- Requests that are made between functions leave blocks as they are. -/
theorem follows_outside {r : Request} {a : r.Answer} (hr : r.isOutside = true)
    (h : r.handle g = .ok (a, g')) :
    Follows g g' := by
  cases r with
  | defineStruct location decl =>
    rw [Request.handle, hδ.defineStruct] at h
    exact (Writing.writes h).toFollows
  | defineTexture location t => exact ((hδ.defineTexture location t).writes h).toFollows
  | defineSampler location s => exact ((hδ.defineSampler location s).writes h).toFollows
  | defineUniform location u => exact ((hδ.defineUniform location u).writes h).toFollows
  | defineVariable location t name isGlobal init =>
    rw [Request.handle, hδ.defineVariable] at h
    exact (Writing.writes h).toFollows
  | defineEntryPoint decl isPixelShader => exact hδ.defineEntryPoint h
  | markRenderTarget | defineTechnique =>
    dsimp only [Request.handle, Generator.markRenderTarget, Generator.defineTechnique] at h
    exact (Writing.writes h).toFollows
  | _ => cases hr

/-- A block is ended with lines that its end asks for. -/
theorem handle_ending {e : Ending} {ended : Id} (h : e.handle g = .ok (ended, g'))
    (hg : g.currentBlock ≠ 0) :
    ∃ new, ended = g.currentBlock ∧ Closes new g g' ∧ match e with
      | .kill | .giveBack _ => Unmarked new
      | .switch .. | .branchIf .. => new = []
      | .branch target flow => new = jumpLines target flow := by
  cases e with
  | kill =>
    have h : Backend.leaveAndKill g = .ok (ended, g') := h
    rw [hδ.leaveAndKill] at h
    obtain ⟨new, hnew, hended, hcloses⟩ := leaveAndKill_spec hδ.literal h hg
    exact ⟨new, hended, hcloses, hnew⟩
  | giveBack value =>
    have h : Backend.leaveAndReturn value g = .ok (ended, g') := h
    rw [hδ.leaveAndReturn] at h
    obtain ⟨new, hnew, hended, hcloses⟩ := leaveAndReturn_spec h hg
    exact ⟨new, hended, hcloses, hnew⟩
  | switch selector target =>
    have h : Backend.leaveAndSwitch selector target g = .ok (ended, g') := h
    rw [hδ.leaveAndSwitch] at h
    obtain ⟨hended, hcloses⟩ := leaveOpen_spec h hg
    exact ⟨_, hended, hcloses, rfl⟩
  | branch target flow =>
    have h : Backend.leaveAndBranch target flow g = .ok (ended, g') := h
    rw [hδ.leaveAndBranch] at h
    obtain ⟨hended, hcloses⟩ := (leaveAndBranch_spec h).1 hg
    exact ⟨_, hended, hcloses, rfl⟩
  | branchIf condition yes no =>
    have h : Backend.leaveAndBranchConditional condition yes no g = .ok (ended, g') := h
    rw [hδ.leaveAndBranchConditional] at h
    obtain ⟨hended, hcloses⟩ := leaveOpen_spec h hg
    exact ⟨_, hended, hcloses, rfl⟩

omit [Literals δ] hδ in
/-- What is noted of a plain request is what it adds to the current block. -/
theorem note_plain {r : Request} {a : r.Answer} (h : r.handle g = .ok (a, g'))
    (hr : r.isPlain = true) :
    (noteOf observe r g g').lines = newLines g g' := by
  have hask {α : Type} {f : Generator (State δ) → α} {a : α}
      (h : (do return f (← get) : SourceM δ α) g = .ok (a, g')) : [] = newLines g g' := by
    simp only [bind_eq_ok, get_eq_ok, pure_eq_ok] at h
    obtain ⟨_, _, ⟨rfl, rfl⟩, -, rfl⟩ := h
    exact List.drop_length.symm
  cases r with
  | isInFunction | findStruct | findTexture | findFunction => exact hask h
  | defineVariable location t name isGlobal init =>
    cases isGlobal with
    | false => rfl
    | true => cases hr
  | load | store | constant | unary | binary | select | call | callIntrinsic | construct => rfl
  | _ => cases hr

theorem plain_spec {r : Request} {a : r.Answer} (h : r.handle g = .ok (a, g'))
    (hr : r.isPlain = true) :
    Adds loom g g' ∧ loom.Keeps [g.currentBlock] g.target g'.target
      ∧ ∀ k, loom.holds g.target g.currentBlock k →
        loom.holds g'.target g.currentBlock
          ((weave (Dialect.movesBareDeclarations δ)).add k (noteOf observe r g g')) := by
  have hwrites := (writing_plain hr).writes h
  obtain ⟨new, hnew, hchanges⟩ := hwrites.changes
  refine ⟨⟨hwrites.current, rfl⟩, hchanges.keeps, fun k hk => ⟨hk.1, ?_⟩⟩
  rw [(newLines_of_writes hwrites).2, hk.2, ← note_plain h hr]
  rfl

theorem enter_spec {id : Id} {u : Unit} (h : Backend.enterBlock id g = .ok (u, g')) :
    g'.currentBlock = id ∧ g'.lastBlock = g.currentBlock ∧ g'.nextId = g.nextId
      ∧ loom.find g'.target = loom.find g.target ∧ loom.Keeps [id] g.target g'.target
      ∧ (loom.vacant g.target id →
        loom.holds g'.target id ((weave (Dialect.movesBareDeclarations δ)).enter id)) := by
  rw [hδ.enterBlock] at h
  obtain ⟨_, g₁, hset, hwrite⟩ := bind_eq_ok.mp h
  obtain ⟨-, rfl⟩ := setBlock_spec hset
  have hchanges := write_spec hwrite
  have hkeeps := hchanges.keeps
  have hnext := write_nextId hwrite
  refine ⟨hchanges.current, hchanges.last, hnext, rfl, hkeeps,
    fun hvacant => ⟨hvacant.1, ?_⟩⟩
  rw [hchanges.code hvacant.1 List.not_mem_nil, List.append_nil, State.code, hvacant.2]
  rfl

theorem leave_spec {e : Ending} {ended : Id} (h : e.handle g = .ok (ended, g'))
    (hg : g.currentBlock ≠ 0) :
    ended = g.currentBlock ∧ g'.currentBlock = 0 ∧ g'.lastBlock = g.currentBlock
      ∧ loom.find g'.target = loom.find g.target
      ∧ loom.Keeps [g.currentBlock] g.target g'.target
      ∧ ∀ k, loom.holds g.target g.currentBlock k → loom.holds g'.target g.currentBlock
        ((weave (Dialect.movesBareDeclarations δ)).leave k e (noteOf observe e.request g g')) := by
  obtain ⟨new, hended, hcloses, hnew⟩ := handle_ending h hg
  have hkept {b : Id} (hb : b ∉ [g.currentBlock]) :
      Table.get? g'.target.blocks b = Table.get? g.target.blocks b :=
    hcloses.kept b (by simpa using hb)
  refine ⟨hended, hcloses.block, hcloses.last, rfl,
    fun b hb => ⟨fun k hk => ?_, fun hvacant => ?_⟩, fun k hk => ⟨hg, ?_⟩⟩
  · exact ⟨hk.1, (State.code_congr (hkept hb)).trans hk.2⟩
  · exact ⟨hvacant.1, (hkept hb).trans hvacant.2⟩
  · have hlines := newLines_of_closes hcloses hg
    rw [hcloses.code hg, hk.2]
    cases e with
    | kill | giveBack => exact congrArg (k ++ ·) hlines.symm
    | switch | branchIf => rw [hnew, List.append_nil]; rfl
    | branch target flow => rw [hnew]; rfl

theorem stay_spec {target : Id} {flow : Flow} {ended : Id}
    (h : Backend.leaveAndBranch target flow g = .ok (ended, g'))
    (hg : g.currentBlock = 0) : ended = g.lastBlock ∧ g' = g := by
  rw [hδ.leaveAndBranch] at h
  exact (leaveAndBranch_spec h).2 hg

omit hδ [Literals δ] [Backend (State δ)] in
theorem moves_of_changes {taken : List Id} {ls : Lines} (h : Changes taken ls g g') (entered : Id) :
    Moves (weave (Dialect.movesBareDeclarations δ)) loom entered g g' :=
  ⟨h.current, fun hfollows => absurd hfollows Bool.false_ne_true⟩

omit hδ [Dialect δ] [Literals δ] [Backend (State δ)] in
theorem keeps_mono {L : Loom (State δ) Lines} {changed more : List Id} {t t' : State δ}
    (h : L.Keeps changed t t') (hsub : changed ⊆ more) : L.Keeps more t t' :=
  fun b hb => h b fun hmem => hb (hsub hmem)

theorem ifElse_spec {s : Selection Note} {u : Unit} {start test yes no : Lines}
    (h : Backend.emitIf s.location s.condition s.conditionEnd s.yesEnd s.noEnd s.hint g
      = .ok (u, g'))
    (hnote : s.note
      = observe (.emitIf s.location s.condition s.conditionEnd s.yesEnd s.noEnd s.hint) g g')
    (hmerge : g.currentBlock = s.merge) (hne : [s.merge, s.noEnd, s.yesEnd, s.conditionEnd].Nodup)
    (hstart : loom.holds g.target s.merge start) (htest : loom.holds g.target s.conditionEnd test)
    (hyes : loom.holds g.target s.yesEnd yes) (hno : loom.holds g.target s.noEnd no) :
    Moves (weave (Dialect.movesBareDeclarations δ)) loom s.conditionEnd g g'
      ∧ loom.Keeps [s.merge, s.noEnd, s.yesEnd, s.conditionEnd] g.target g'.target
      ∧ loom.holds g'.target s.merge
        ((weave (Dialect.movesBareDeclarations δ)).ifElse s start test yes no) := by
  rw [hδ.emitIf] at h
  have hchanges := emitIf_spec h (by rw [hmerge]; grind)
  refine ⟨moves_of_changes hchanges _, keeps_mono hchanges.keeps (by simp [hmerge]), ?_⟩
  have hholds := hchanges.holds (by rw [hmerge]; grind) (hmerge.symm ▸ hstart)
  rw [htest.2, hyes.2, hno.2, hmerge] at hholds
  rw [weave_ifElse, hnote]
  exact hholds

/-- A short circuit is written with the code of its condition in front of it. -/
theorem phi_spec {location : Location}
    {condition conditionBlock trueValue trueBlock falseValue falseBlock merge id : Id}
    {t : Ty} {start test : Lines}
    (h : Backend.emitPhi location condition conditionBlock trueValue trueBlock falseValue falseBlock
      t g = .ok (id, g'))
    (hmerge : g.currentBlock = merge) (hnot : merge ∉ [trueBlock, falseBlock, conditionBlock])
    (hstart : loom.holds g.target merge start) (htest : loom.holds g.target conditionBlock test) :
    Moves (weave (Dialect.movesBareDeclarations δ)) loom conditionBlock g g'
      ∧ loom.Keeps [merge, trueBlock, falseBlock, conditionBlock] g.target g'.target
      ∧ loom.holds g'.target merge (start ++ (test ++ (observe
        (.emitPhi location condition conditionBlock trueValue trueBlock falseValue falseBlock t) g
          g').lines))
      ∧ loom.holds g'.target conditionBlock [] := by
  rw [hδ.emitPhi] at h
  have hne : conditionBlock ≠ g.currentBlock := by rw [hmerge]; grind
  obtain ⟨taken, new, hsub, hmem, hchanges⟩ := emitPhi_spec h hne
  have hnot' : g.currentBlock ∉ taken := fun hmem => hnot (hmerge ▸ hsub hmem)
  have hnew := newLines_of_changes hchanges (hmerge.symm ▸ hstart.1) hnot'
  have hholds := hchanges.holds hnot' (hmerge.symm ▸ hstart)
  refine ⟨moves_of_changes hchanges _, ?_, ?_, hchanges.holds_taken hmem hne htest.1⟩
  · exact keeps_mono hchanges.keeps (hmerge ▸ List.cons_subset_cons _ hsub)
  · rw [observe, hnew, ← htest.2, ← hmerge]
    exact hholds

theorem whileLoop_spec {l : Looping Note} {u : Unit} {start before header test body next : Lines}
    (h : Backend.emitLoop l.location l.condition l.before l.header l.conditionEnd l.bodyEnd l.next
      l.hint g = .ok (u, g')) (hnote : l.note = observe (l.closes l.conditionEnd).request g g')
    (hmerge : g.currentBlock = l.merge)
    (hne : [l.merge, l.bodyEnd, l.next, l.conditionEnd, l.header, l.before].Nodup)
    (htest' : l.conditionEnd ≠ 0) (hstart : loom.holds g.target l.merge start)
    (hbefore : loom.holds g.target l.before before)
    (htest : loom.holds g.target l.conditionEnd test) (hbody : loom.holds g.target l.bodyEnd body)
    (hnext : loom.holds g.target l.next next) :
    Moves (weave (Dialect.movesBareDeclarations δ)) loom l.before g g'
      ∧ loom.Keeps [l.merge, l.bodyEnd, l.next, l.conditionEnd, l.header, l.before]
        g.target g'.target
      ∧ loom.holds g'.target l.merge
        ((weave (Dialect.movesBareDeclarations δ)).loop l start before header (some test)
          body next) := by
  rw [hδ.emitLoop] at h
  have hchanges := emitLoop_spec h (by rw [hmerge]; grind) fun _ => by rw [hmerge]; grind
  rw [if_neg htest', if_neg htest'] at hchanges
  refine ⟨moves_of_changes hchanges _, keeps_mono hchanges.keeps (by simp [hmerge]), ?_⟩
  have hholds := hchanges.holds (by rw [hmerge]; grind) (hmerge.symm ▸ hstart)
  rw [hbefore.2, htest.2, hbody.2, hnext.2, hmerge] at hholds
  rw [weave_loop, hnote]
  exact hholds

theorem doLoop_spec {l : Looping Note} {u : Unit} {start before header body next : Lines}
    (h : Backend.emitLoop l.location l.condition l.before l.header 0 l.bodyEnd l.next l.hint g
      = .ok (u, g')) (hnote : l.note = observe (l.closes 0).request g g')
    (hmerge : g.currentBlock = l.merge)
    (hne : [l.merge, l.next, l.bodyEnd, l.header, l.before].Nodup)
    (hstart : loom.holds g.target l.merge start) (hbefore : loom.holds g.target l.before before)
    (hbody : loom.holds g.target l.bodyEnd body) (hnext : loom.holds g.target l.next next) :
    Moves (weave (Dialect.movesBareDeclarations δ)) loom l.before g g'
      ∧ loom.Keeps [l.merge, l.next, l.bodyEnd, l.header, l.before] g.target g'.target
      ∧ loom.holds g'.target l.merge
        ((weave (Dialect.movesBareDeclarations δ)).loop l start before header none body next) := by
  rw [hδ.emitLoop] at h
  have hchanges := emitLoop_spec h (by rw [hmerge]; grind) fun hzero => absurd rfl hzero
  rw [if_pos rfl, if_pos rfl, List.append_nil] at hchanges
  refine ⟨moves_of_changes hchanges _, keeps_mono hchanges.keeps (by simp [hmerge]), ?_⟩
  have hholds := hchanges.holds (by rw [hmerge]; grind) (hmerge.symm ▸ hstart)
  rw [hbefore.2, hbody.2, hnext.2, hmerge] at hholds
  rw [weave_loop, hnote]
  exact hholds

theorem switch_spec {d : Dispatch Note} {u : Unit} {start selector : Lines}
    {sections : List (Labels × Lines)}
    (h : Backend.emitSwitch d.location d.selector d.selectorEnd d.defaultLabel
      (Labels.cases (sections.map (·.1))) d.hint g = .ok (u, g'))
    (hnote : d.note = observe (.emitSwitch d.location d.selector d.selectorEnd d.defaultLabel
      (Labels.cases (sections.map (·.1))) d.hint) g g')
    (hmerge : g.currentBlock = d.merge)
    (hne : (d.merge :: d.selectorEnd :: sections.map (·.1.ended)).Nodup)
    (hne' : d.merge ≠ 0 ∧ ∀ s ∈ sections, s.1.ended ≠ 0)
    (hlabels : Labels.Proper d.merge d.defaultLabel (sections.map (·.1)))
    (hstart : loom.holds g.target d.merge start)
    (hselector : loom.holds g.target d.selectorEnd selector)
    (hsections : ∀ s ∈ sections, loom.holds g.target s.1.ended s.2) :
    Moves (weave (Dialect.movesBareDeclarations δ)) loom d.selectorEnd g g'
      ∧ loom.Keeps (d.merge :: d.selectorEnd :: sections.map (·.1.ended)) g.target g'.target
      ∧ loom.holds g'.target d.merge
        ((weave (Dialect.movesBareDeclarations δ)).switch d start selector sections) := by
  rw [hδ.emitSwitch] at h
  obtain ⟨hapart, hend⟩ := Labels.areApart hne hne' hlabels
  obtain ⟨taken, hsub, hchanges⟩ :=
    emitSwitch_spec h hmerge hapart hend fun s hs => (hsections s hs).2
  have hnot : g.currentBlock ∉ taken :=
    fun hmem => (List.nodup_cons.mp hne).1 (hmerge ▸ hsub hmem)
  refine ⟨moves_of_changes hchanges _,
    keeps_mono hchanges.keeps (hmerge ▸ List.cons_subset_cons _ hsub), ?_⟩
  have hholds := hchanges.holds hnot (hmerge.symm ▸ hstart)
  rw [hselector.2, hmerge] at hholds
  rw [weave_switch, hnote]
  exact hholds

/-- Generators of source text put code together as their weave says. -/
theorem models :
    (weave (Dialect.movesBareDeclarations δ)).Models (loom : Loom (State δ) Lines) observe where
  nextId_le := hδ.nextId_le
  plain h hr _ := plain_spec h hr
  enter h := enter_spec h
  leave h hg := leave_spec h hg
  stay h hg := stay_spec h hg
  ifElse h hnote hmerge hne hstart htest hyes hno :=
    ifElse_spec h hnote hmerge hne hstart htest hyes hno
  circuit h hmerge hne hstart htest _ :=
    have ⟨hmoves, hkeeps, hholds, hrest⟩ := phi_spec h hmerge (by grind) hstart htest
    ⟨hmoves, keeps_mono hkeeps (by simp), hholds, hrest⟩
  choice h hmerge hne hstart htest _ _ :=
    have ⟨hmoves, hkeeps, hholds, hrest⟩ := phi_spec h hmerge (by grind) hstart htest
    ⟨hmoves, keeps_mono hkeeps (by simp), hholds, hrest⟩
  whileLoop h hnote hmerge hne htest' hfound hstart hbefore _ htest hbody hnext := by
    obtain rfl := hfound
    exact whileLoop_spec h hnote hmerge hne htest' hstart hbefore htest hbody hnext
  doLoop h hnote hmerge hne hfound hstart hbefore _ hbody hnext := by
    obtain rfl := hfound
    exact doLoop_spec h hnote hmerge hne hstart hbefore hbody hnext
  switch h hnote hmerge hne hne' hlabels hstart hselector hsections :=
    switch_spec h hnote hmerge hne hne' hlabels hstart hselector hsections

end Textual

end Source

open Source

instance : Textual Glsl.Language where
  hints isLoop hint := by
    show Unmarked (Glsl.attributes isLoop hint)
    unfold Glsl.attributes
    infer_instance
  literal _ _ := inferInstance
  nextId_le h := (Backend.Answering.grows h).nextId
  load _ _ := Source.loadValue_writing
  store _ _ := Glsl.storeValue_writing
  unary _ _ _ _ := Glsl.emitUnary_writing
  binary _ _ _ operands _ _ := @Glsl.emitBinary_writing _ _ _ operands _ _
  select _ _ _ _ _ := Glsl.emitSelect_writing
  callIntrinsic _ _ _ _ := Glsl.emitIntrinsic_writing
  construct _ _ _ := Glsl.emitConstruct_writing
  defineTexture _ _ := Glsl.defineTexture_writing
  defineSampler _ _ := Glsl.defineSampler_writing
  defineUniform _ _ := Source.defineUniform_writing
  defineEntryPoint h := Glsl.follows_emitEntryPoint h
  isInFunction _ := rfl
  finish _ := ⟨_, rfl⟩
  constant := rfl
  call := rfl
  defineStruct := rfl
  defineVariable := rfl
  defineFunction := rfl
  leaveFunction := rfl
  enterBlock := rfl
  leaveAndKill := rfl
  leaveAndReturn := rfl
  leaveAndSwitch := rfl
  leaveAndBranch := rfl
  leaveAndBranchConditional := rfl
  emitIf := rfl
  emitPhi := rfl
  emitLoop := rfl
  emitSwitch := rfl

instance : Textual Hlsl.Language where
  hints isLoop hint := by
    show Unmarked (Hlsl.attributes isLoop hint)
    unfold Hlsl.attributes
    infer_instance
  literal _ _ := inferInstance
  nextId_le h := (Backend.Answering.grows h).nextId
  load _ _ := Source.loadValue_writing
  store _ _ := Hlsl.storeValue_writing
  unary _ _ _ _ := Hlsl.emitUnary_writing
  binary _ _ _ operands _ _ := @Hlsl.emitBinary_writing _ _ _ operands _ _
  select _ _ _ _ _ := Hlsl.emitSelect_writing
  callIntrinsic _ _ _ _ := Hlsl.emitIntrinsic_writing
  construct _ _ _ := Hlsl.emitConstruct_writing
  defineTexture _ _ := Hlsl.defineTexture_writing
  defineSampler _ _ := Hlsl.defineSampler_writing
  defineUniform _ _ := Source.defineUniform_writing
  defineEntryPoint h := (Hlsl.emitEntryPoint_writing.writes h).toFollows
  isInFunction _ := rfl
  finish _ := ⟨_, rfl⟩
  constant := rfl
  call := rfl
  defineStruct := rfl
  defineVariable := rfl
  defineFunction := rfl
  leaveFunction := rfl
  enterBlock := rfl
  leaveAndKill := rfl
  leaveAndReturn := rfl
  leaveAndSwitch := rfl
  leaveAndBranch := rfl
  leaveAndBranchConditional := rfl
  emitIf := rfl
  emitPhi := rfl
  emitLoop := rfl
  emitSwitch := rfl

end ShaderEffect
