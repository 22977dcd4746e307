import ShaderEffect.Proofs.Spirv.Strand
import ShaderEffect.Proofs.Weave.Simulation

namespace ShaderEffect.Spirv

/-- Every other element of a list, from the first on. -/
def everyOther {α : Type} : List α → List α
  | [] => []
  | [a] => [a]
  | a :: _ :: rest => a :: everyOther rest

/-- The blocks that an instruction leads to, or names as those behind a construct. -/
def Instruction.targets (i : Instruction) : List Id :=
  if i.op = Op.branch then i.operands
  else if i.op = Op.branchConditional then i.operands.drop 1
  else if i.op = Op.switch then everyOther (i.operands.drop 1)
  else if i.op = Op.selectionMerge then i.operands.take 1
  else if i.op = Op.loopMerge then i.operands.take 2
  else []

/-- The labels of some blocks. -/
def labelsOf (blocks : List Block) : List Id :=
  blocks.map (·.label)

/-- A switch statement, whose sections are what is read of it. -/
abbrev Choices :=
  Dispatch (List Instruction) × Sections (List Instruction)

/-- The sections of a switch statement, with their labels. -/
def Choices.sections (c : Choices) : List (Labels × Strand) :=
  weave.sectionCodes (weave.enter c.1.first) c.2

/-- Whether an instruction sends the case labels of a switch statement, and all other values, to
the first blocks of the sections that they belong to. The blocks of each section follow each other
in the function. -/
structure Dispatches (blocks : List Block) (c : Choices) (i : Instruction) : Prop where
  operands : i.operands
    = c.1.selector :: defaultEntry (weave.enter c.1.merge) c.sections :: caseTargets c.sections
  sections : ∀ s ∈ reachable c.sections, s.2.close <:+: blocks.tail

section Blocks

variable (blocks : List Block) (choices : List Choices)

/-- Whether an instruction can end a block of a function. -/
structure Terminates (i : Instruction) : Prop where
  op : i.op ∈ terminators
  targets : ∀ l ∈ i.targets, l ∈ labelsOf blocks
  switch : i.op = Op.switch → ∃ c ∈ choices, Dispatches blocks c i

/-- Whether an instruction can stand in front of the end of a block of a function. -/
structure Merges (i : Instruction) : Prop where
  op : i.op = Op.selectionMerge ∨ i.op = Op.loopMerge
  targets : ∀ l ∈ i.targets, l ∈ labelsOf blocks

/-- Whether a block of a function is well formed. -/
structure Block.Proper (b : Block) : Prop where
  body : ∀ i ∈ b.body, i.IsOrdinary
  merge : ∀ i ∈ b.merge, Merges blocks i
  terminator : ∃ i, b.terminator = some i ∧ Terminates blocks choices i

namespace Strand

/-- Whether the finished blocks of a strand are well formed, as far as it has come. -/
structure Grows (k : Strand) : Prop where
  done : ∀ b ∈ k.done, b.Proper blocks choices
  body : ∀ i ∈ k.body, i.IsOrdinary

/-- Whether the last block of a strand is ended. -/
def Ends (k : Strand) : Prop :=
  ∃ i, k.terminator = some i ∧ Terminates blocks choices i

/-- Whether the finished blocks of a strand follow each other in a function, which has
the last one too. -/
structure Within (k : Strand) : Prop where
  done : k.done <:+: blocks
  labels : k.labels ⊆ labelsOf blocks

end Strand
end Blocks

namespace Strand

/-- Whether a strand begins with the blocks of another. -/
structure Precedes (k k' : Strand) : Prop where
  done : k.done <+: k'.done
  labels : k.labels <+: k'.labels

@[simp] theorem labels_enter (id : Id) : (weave.enter id).labels = [id] :=
  rfl

@[simp] theorem labels_append (k : Strand) (values : List Instruction) :
    (k.append values).labels = k.labels := by
  simp [labels, close, append]

@[simp] theorem labels_leave (k : Strand) (e : Ending) (note : List Instruction) :
    (weave.leave k e note).labels = k.labels := by
  simp [weave, labels, close, append]

@[simp] theorem labels_goOn (k : Strand) (target : Id) : (weave.goOn k target).labels = k.labels :=
  labels_leave ..

@[simp] theorem labels_goOnIf (k : Strand) (condition yes no : Id) :
    (weave.goOnIf k condition yes no).labels = k.labels :=
  labels_leave ..

@[simp] theorem labels_goOnUnless (ended : Bool) (k : Strand) (target : Id) :
    (weave.goOnUnless ended k target).labels = k.labels := by
  cases ended <;> simp [Weave.goOnUnless]

@[simp] theorem labelsOf_nil : labelsOf [] = [] :=
  rfl

@[simp] theorem labelsOf_append (front back : List Block) :
    labelsOf (front ++ back) = labelsOf front ++ labelsOf back :=
  List.map_append

@[simp] theorem labelsOf_close (k : Strand) (merge : Option Instruction) :
    labelsOf (k.close merge) = k.labels := by
  simp [labelsOf, labels, close]

@[simp] theorem labels_behind (k : Strand) (blocks : List Block) :
    (k.behind blocks).labels = labelsOf blocks ++ k.labels := by
  simp [labels, labelsOf, close, behind]

namespace Precedes

variable {k k' k'' : Strand}

theorem refl (k : Strand) : k.Precedes k :=
  ⟨List.prefix_rfl, List.prefix_rfl⟩

theorem trans (h : k.Precedes k') (h' : k'.Precedes k'') : k.Precedes k'' :=
  ⟨h.done.trans h'.done, h.labels.trans h'.labels⟩

theorem append (h : k.Precedes k') (values : List Instruction) : k.Precedes (k'.append values) :=
  ⟨h.done, (labels_append ..).symm ▸ h.labels⟩

theorem leave (h : k.Precedes k') (e : Ending) (note : List Instruction) :
    k.Precedes (weave.leave k' e note) :=
  ⟨h.done, (labels_leave ..).symm ▸ h.labels⟩

/-- A strand begins with what is put in front of it. -/
theorem behind {start : Strand} (h : k.Precedes k') (merge : Option Instruction)
    (rest : List Block) :
    k.Precedes (start.behind (k'.close merge ++ rest)) where
  done := by
    simp only [Strand.behind, close, List.append_assoc]
    exact h.done.trans (List.prefix_append _ _)
  labels := by
    rw [labels_behind, labelsOf_append, labelsOf_close, List.append_assoc]
    exact h.labels.trans (List.prefix_append _ _)

end Precedes

/-- The values of a straight evaluation go to the block it began in. -/
theorem run_straight (k : Strand) {t : Evaluation (List Instruction)} (ht : t.isStraight = true) :
    ∃ values, weave.run k t = k.append values := by
  induction t generalizing k with
  | nothing => exact ⟨[], by simp [Weave.run, append]⟩
  | step s => exact ⟨s.val.note, rfl⟩
  | andThen x y ihx ihy =>
    rw [Evaluation.isStraight, Bool.and_eq_true] at ht
    obtain ⟨first, hx⟩ := ihx k ht.1
    obtain ⟨second, hy⟩ := ihy (k.append first) ht.2
    exact ⟨first ++ second, by rw [Weave.run, hx, hy]; simp [append]⟩
  | _ => cases ht

theorem precedes_run (k : Strand) {t : Evaluation (List Instruction)} (ht : t.isStraight = true) :
    k.Precedes (weave.run k t) := by
  obtain ⟨values, hrun⟩ := run_straight k ht
  exact hrun ▸ (Precedes.refl k).append values

theorem labels_run (k : Strand) {t : Evaluation (List Instruction)} (ht : t.isStraight = true) :
    (weave.run k t).labels = k.labels := by
  obtain ⟨values, hrun⟩ := run_straight k ht
  rw [hrun, labels_append]

variable {test : Evaluation (List Instruction) → Prop}
  (htest : ∀ t, test t → t.isStraight = true)

section Flow

variable (k : Strand)

theorem flow_branch (s : Selection (List Instruction)) (condition : Evaluation (List Instruction))
    (yes no : Statement (List Instruction)) :
    weave.flow k (.branch s condition yes no) = (weave.enter s.merge).behind
      ((weave.goOnIf (weave.run k condition) s.condition s.yes s.no).close (mergeOf s.merge s.hint)
        ++ ((weave.goOnUnless yes.ends (weave.flow (weave.enter s.yes) yes) s.merge).close
          ++ (weave.goOnUnless no.ends (weave.flow (weave.enter s.no) no) s.merge).close)) := by
  rw [Weave.flow, ← List.append_assoc]
  rfl

/-- The blocks of a loop behind its header. -/
def roundBlocks (l : Looping (List Instruction)) (body : Statement (List Instruction))
    (test : List Block) (next : Strand) : List Block :=
  test ++ ((weave.goOnUnless body.ends (weave.flow (weave.enter l.body) body) l.next).close
    ++ next.close)

/-- A loop, from the code in front of it. -/
def loopFrom (l : Looping (List Instruction)) (first : Id) (before : Strand) (rounds : List Block) :
    Strand :=
  (weave.enter l.merge).behind ((weave.goOn before l.header).close
    ++ ((weave.goOn (weave.enter l.header) first).close (loopMergeOf l.merge l.next l.hint)
      ++ rounds))

theorem weave_loop (l : Looping (List Instruction)) (start before header body next : Strand)
    (test : Option Strand) :
    weave.loop l start before header test body next
      = start.behind (before.close ++ (header.close (loopMergeOf l.merge l.next l.hint)
        ++ ((test.map close).getD [] ++ (body.close ++ next.close)))) := by
  simp only [weave, List.append_assoc]

theorem nextCode_eq (step : Evaluation (List Instruction)) (next : Id) (e : Ending) :
    weave.nextCode step next e = weave.leave (weave.run (weave.enter next) step) e default := by
  rw [Weave.nextCode, show weave.follows = true from rfl]
  simp

theorem flow_forLoop (l : Looping (List Instruction)) (first : Id)
    (start : Evaluation (List Instruction)) (condition : Option (Evaluation (List Instruction)))
    (step : Evaluation (List Instruction)) (body : Statement (List Instruction)) :
    weave.flow k (.forLoop l first start condition step body) = loopFrom l first (weave.run k start)
      (roundBlocks l body (weave.testCode l first condition).close
        (weave.goOn (weave.run (weave.enter l.next) step) l.header)) := by
  rw [Weave.flow, weave_loop, nextCode_eq]
  rfl

theorem flow_whileLoop (l : Looping (List Instruction)) (first : Id)
    (condition : Evaluation (List Instruction)) (body : Statement (List Instruction)) :
    weave.flow k (.whileLoop l first condition body) = loopFrom l first k
      (roundBlocks l body (weave.testCode l first (some condition)).close
        (weave.goOn (weave.enter l.next) l.header)) := by
  rw [Weave.flow, weave_loop]
  rfl

theorem flow_doLoop (l : Looping (List Instruction)) (body : Statement (List Instruction))
    (condition : Evaluation (List Instruction)) :
    weave.flow k (.doLoop l body condition) = loopFrom l l.body k
      (roundBlocks l body []
        (weave.goOnIf (weave.run (weave.enter l.next) condition) l.condition l.header
          l.merge)) := by
  rw [Weave.flow, weave_loop, nextCode_eq]
  rfl

/-- The code of a selector that leads to the sections of its switch statement. -/
def selection (c : Choices) (selector : Strand) : Strand :=
  { selector with terminator := some (switchOf c.1 (weave.enter c.1.merge) c.sections) }

@[simp] theorem labels_selection (c : Choices) (selector : Strand) :
    (selection c selector).labels = selector.labels := by
  simp [labels, close, selection]

variable {k} in
theorem Precedes.selection {k' : Strand} (h : k.Precedes k') (c : Choices) :
    k.Precedes (selection c k') :=
  ⟨h.done, (labels_selection ..).symm ▸ h.labels⟩

theorem flow_switch (c : Choices) (selector : Evaluation (List Instruction)) :
    weave.flow k (.switch c.1 selector c.2) = (weave.enter c.1.merge).behind
      ((selection c (weave.run k selector)).close (mergeOf c.1.merge c.1.hint)
        ++ (reachable c.sections).flatMap (·.2.close)) :=
  rfl

@[simp] theorem labelsOf_roundBlocks (l : Looping (List Instruction))
    (body : Statement (List Instruction)) (test : List Block) (next : Strand) :
    labelsOf (roundBlocks l body test next)
      = labelsOf test ++ ((weave.flow (weave.enter l.body) body).labels ++ next.labels) := by
  simp [roundBlocks]

@[simp] theorem labels_loopFrom (l : Looping (List Instruction)) (first : Id) (before : Strand)
    (rounds : List Block) :
    (loopFrom l first before rounds).labels
      = before.labels ++ l.header :: (labelsOf rounds ++ [l.merge]) := by
  simp [loopFrom]

theorem precedes_loopFrom (l : Looping (List Instruction)) (first : Id) {before : Strand}
    (h : k.Precedes before) (rounds : List Block) : k.Precedes (loopFrom l first before rounds) :=
  (h.leave _ _).behind _ _

end Flow

include htest

omit htest in
/-- Sections that are left out have no labels in the function. -/
theorem count_reachable (a : Id) (sections : List (Labels × Strand)) :
    (labelsOf ((reachable sections).flatMap (·.2.close))).count a
      ≤ (sections.flatMap (·.2.labels)).count a := by
  induction sections with
  | nil => exact Nat.le_refl _
  | cons s sections ih =>
    simp [reachable, List.count_append] at ih
    by_cases hlit : s.1.literals = [] <;> by_cases hdefault : s.1.isDefault = true <;>
      simp [reachable, hlit, hdefault, List.count_append] <;> omega

mutual

/-- The labels of a statement are ids that were made for it. -/
theorem count_labels_flow (a : Id) :
    (t : Statement (List Instruction)) → t.All test → (k : Strand) →
    (weave.flow k t).labels.count a ≤ k.labels.count a + (made t.entries).count a
  -- By induction over the statement. A construct has the labels of its parts and those of the
  -- blocks that it enters itself, each of which was made for it.
  | .nothing, _, k => Nat.le_add_right ..
  | .andThen x y, ht, k => by
    have hx := count_labels_flow a x ht.1 k
    have hy := count_labels_flow a y ht.2 (weave.flow k x)
    simp only [Weave.flow, Statement.entries, made_append, List.count_append]
    omega
  | .nested body, ht, k => count_labels_flow a body ht k
  | .evaluate _ value, ht, k => by
    rw [Weave.flow, labels_run k (htest value ht)]
    exact Nat.le_add_right ..
  | .leave value _, ht, k => by
    rw [Weave.flow, labels_leave, labels_run k (htest value ht)]
    exact Nat.le_add_right ..
  | .branch s condition yes no, ht, k => by
    have hyes := count_labels_flow a yes ht.2.1 (weave.enter s.yes)
    have hno := count_labels_flow a no ht.2.2 (weave.enter s.no)
    simp [flow_branch, labels_run k (htest condition ht.1), List.count_cons, List.count_append,
      Statement.entries, statementStart, ShaderEffect.goOn, goOnIf, made_cons,
      Entry.made?] at hyes hno ⊢
    omega
  | .switch d selector sections, ht, k => by
    have hs := count_labels_sections a d.merge sections ht.2.2 (weave.enter d.first)
    have hr := count_reachable a (Choices.sections (d, sections))
    rw [show weave.flow k (.switch d selector sections)
      = _ from flow_switch k (d, sections) selector]
    simp [Choices.sections, labels_run k (htest selector ht.1), List.count_cons, List.count_append,
      Statement.entries, statementStart, made_cons, Entry.made?] at hs hr ⊢
    omega
  | .forLoop l first start condition step body, ht, k => by
    have hbody := count_labels_flow a body ht.2.2.2 (weave.enter l.body)
    have hcondition : (weave.testCode l first condition).labels = [first] := by
      cases condition with
      | none => rfl
      | some condition =>
        exact (labels_goOnIf ..).trans (labels_run _ (htest condition (ht.2.1 condition rfl)))
    simp [flow_forLoop, hcondition, labels_run _ (htest start ht.1),
      labels_run _ (htest step ht.2.2.1), List.count_append, List.count_cons, Statement.entries,
      statementStart, Looping.makes, Looping.opens, Looping.closes, ShaderEffect.goOn, goOnIf,
      made_cons, Entry.made?] at hbody ⊢
    omega
  | .whileLoop l first condition body, ht, k => by
    have hbody := count_labels_flow a body ht.2 (weave.enter l.body)
    simp [flow_whileLoop, Weave.testCode, labels_run _ (htest condition ht.1), List.count_append,
      List.count_cons, Statement.entries, statementStart, Looping.makes, Looping.opens,
      Looping.closes, ShaderEffect.goOn, goOnIf, made_cons, Entry.made?] at hbody ⊢
    omega
  | .doLoop l body condition, ht, k => by
    have hbody := count_labels_flow a body ht.1 (weave.enter l.body)
    simp [flow_doLoop, labels_run _ (htest condition ht.2), List.count_append, List.count_cons,
      Statement.entries, statementStart, Looping.makes, Looping.opens, Looping.closes,
      ShaderEffect.goOn, goOnIf, made_cons, Entry.made?] at hbody ⊢
    omega

theorem count_labels_sections (a : Id) (merge : Id) :
    (s : Sections (List Instruction)) → s.All test → (k : Strand) →
    ((weave.sectionCodes k s).flatMap (·.2.labels)).count a
      ≤ k.labels.count a + (made (s.entries merge)).count a
  | .last l values body, hs, k => by
    have hbody := count_labels_flow a body hs.2 (weave.run k values)
    simp [Weave.sectionCodes, labels_run k (htest values hs.1), Sections.entries, List.count_append,
      made_cons] at hbody ⊢
    omega
  | .more l values body next rest, hs, k => by
    have hbody := count_labels_flow a body hs.2.1 (weave.run k values)
    have hrest := count_labels_sections a merge rest hs.2.2 (weave.enter next)
    simp [Weave.sectionCodes, labels_run k (htest values hs.1), Sections.entries, List.count_append,
      List.count_cons, made_cons, Entry.made?] at hbody hrest ⊢
    omega

end

end Strand

section Ends

variable {blocks : List Block} {choices : List Choices} {k : Strand} {target : Id}

theorem merges_mergeOf {merge : Id} (h : merge ∈ labelsOf blocks) (hint : ControlHint) :
    Merges blocks (mergeOf merge hint) where
  op := .inl rfl
  targets _ hl := List.mem_singleton.mp hl ▸ h

theorem merges_loopMergeOf {merge next : Id} (h : merge ∈ labelsOf blocks)
    (hnext : next ∈ labelsOf blocks)
    (hint : ControlHint) : Merges blocks (loopMergeOf merge next hint) where
  op := .inr rfl
  targets l hl := by
    obtain rfl | rfl := List.mem_pair.mp (hl : l ∈ [merge, next])
    · exact h
    · exact hnext

/-- An ending that is no switch statement leads to blocks of the function if its
targets are such. -/
theorem terminates_terminator (note : List Instruction) {e : Ending}
    (h : match e with
      | .kill | .giveBack _ => True
      | .switch .. => False
      | .branch target _ => target ∈ labelsOf blocks
      | .branchIf _ yes no => yes ∈ labelsOf blocks ∧ no ∈ labelsOf blocks) :
    Terminates blocks choices (terminator note e) := by
  cases e with
  | kill =>
    exact ⟨(by decide : Op.kill ∈ terminators), nofun,
      fun h => absurd h (by decide : Op.kill ≠ Op.switch)⟩
  | giveBack value =>
    have hop : (terminator note (.giveBack value)).op = Op.ret
        ∨ (terminator note (.giveBack value)).op = Op.returnValue := by
      simp only [terminator]
      cases hfind : note.find? fun i => i.op = Op.ret ∨ i.op = Op.returnValue with
      | none => exact .inl rfl
      | some i => simpa using List.find?_some hfind
    generalize terminator note (.giveBack value) = i at hop
    refine ⟨?_, fun l hl => ?_, fun hswitch => ?_⟩
    · obtain hop | hop := hop <;> rw [hop] <;> decide
    · obtain hop | hop :=
        hop <;> simp [Instruction.targets, hop, Op.ret, Op.returnValue, Op.branch,
          Op.branchConditional, Op.switch, Op.selectionMerge, Op.loopMerge] at hl
    · obtain hop | hop := hop <;> exact absurd (hop.symm.trans hswitch) (by decide)
  | switch => exact h.elim
  | branch target flow =>
    exact ⟨(by decide : Op.branch ∈ terminators), fun l hl => List.mem_singleton.mp hl ▸ h,
      fun h => absurd h (by decide : Op.branch ≠ Op.switch)⟩
  | branchIf condition yes no =>
    refine ⟨(by decide : Op.branchConditional ∈ terminators), fun l hl => ?_,
      fun h => absurd h (by decide : Op.branchConditional ≠ Op.switch)⟩
    obtain rfl | rfl := List.mem_pair.mp (hl : l ∈ [yes, no])
    · exact h.1
    · exact h.2

namespace Strand

theorem ends_goOn (h : target ∈ labelsOf blocks) : (weave.goOn k target).Ends blocks choices :=
  ⟨_, rfl, terminates_terminator (e := .goOn target) _ h⟩

theorem ends_goOnIf {condition yes no : Id} (hyes : yes ∈ labelsOf blocks)
    (hno : no ∈ labelsOf blocks) :
    (weave.goOnIf k condition yes no).Ends blocks choices :=
  ⟨_, rfl, terminates_terminator (e := .branchIf condition yes no) _ ⟨hyes, hno⟩⟩

theorem ends_goOnUnless {ended : Bool} (hended : ended = true → k.Ends blocks choices)
    (h : target ∈ labelsOf blocks) : (weave.goOnUnless ended k target).Ends blocks choices := by
  cases ended with
  | false => exact ends_goOn h
  | true => exact hended rfl

/-- Jumps lead to the blocks that surround them. -/
theorem ends_exit {exit : Exit (List Instruction)} {breaks continues : List Id}
    (hscoped : exit.Scoped breaks continues)
    (hbreaks : ∀ l ∈ breaks.head?, l ∈ labelsOf blocks)
    (hcontinues : ∀ l ∈ continues.head?, l ∈ labelsOf blocks) :
    (weave.leave k exit.ending exit.note).Ends blocks choices := by
  refine ⟨_, rfl, terminates_terminator _ ?_⟩
  cases exit with
  | discard | giveBack => trivial
  | jump target ended flow =>
    cases flow with
    | plain => exact hscoped.elim
    | leaveLoop => exact hbreaks target hscoped
    | nextRound => exact hcontinues target hscoped

end Strand
end Ends

namespace Strand

section Growth

variable {blocks : List Block} {choices : List Choices} {k k' : Strand}

theorem Within.of_close {merge : Option Instruction} (h : k.close merge <:+: blocks) :
    k.Within blocks where
  done := (List.prefix_append _ _).isInfix.trans h
  labels := by
    rw [← labelsOf_close k merge]
    exact (h.map Block.label).subset

theorem Within.of_precedes (h : k'.Within blocks) (hk : k.Precedes k') : k.Within blocks where
  done := hk.done.isInfix.trans h.done
  labels := List.Subset.trans hk.labels.subset h.labels

theorem Within.of_behind {start : Strand} {front : List Block}
    (h : (start.behind front).Within blocks) :
    front <:+: blocks ∧ start.labels ⊆ labelsOf blocks :=
  ⟨(List.prefix_append _ _).isInfix.trans h.done,
    List.Subset.trans (List.subset_append_right _ _) ((labels_behind ..) ▸ h.labels)⟩

theorem grows_enter (id : Id) : (weave.enter id).Grows blocks choices :=
  ⟨nofun, nofun⟩

theorem Grows.append (h : k.Grows blocks choices) (values : List Instruction) :
    (k.append values).Grows blocks choices where
  done := h.done
  body i hi := by
    obtain hi | hi := List.mem_append.mp hi
    · exact h.body i hi
    · exact of_decide_eq_true (List.mem_filter.mp hi).2

theorem Grows.leave (h : k.Grows blocks choices) (e : Ending) (note : List Instruction) :
    (weave.leave k e note).Grows blocks choices :=
  ⟨(h.append note).done, (h.append note).body⟩

theorem Grows.goOnUnless (h : k.Grows blocks choices) (ended : Bool) (target : Id) :
    (weave.goOnUnless ended k target).Grows blocks choices := by
  cases ended with
  | false => exact h.leave _ _
  | true => exact h

theorem Grows.selection (h : k.Grows blocks choices) (c : Choices) :
    (selection c k).Grows blocks choices :=
  ⟨h.done, h.body⟩

theorem Grows.run (h : k.Grows blocks choices) {t : Evaluation (List Instruction)}
    (ht : t.isStraight = true) :
    (weave.run k t).Grows blocks choices := by
  obtain ⟨values, hrun⟩ := run_straight k ht
  exact hrun ▸ h.append values

/-- A strand is complete once its last block is ended. -/
theorem Grows.close (h : k.Grows blocks choices) (hends : k.Ends blocks choices)
    {merge : Option Instruction} (hmerge : ∀ i ∈ merge, Merges blocks i) :
    ∀ b ∈ k.close merge, b.Proper blocks choices := by
  intro b hb
  obtain hb | hb := List.mem_append.mp hb
  · exact h.done b hb
  · rw [List.mem_singleton.mp hb]
    exact ⟨h.body, hmerge, hends⟩

theorem grows_behind {id : Id} {front : List Block} (h : ∀ b ∈ front, b.Proper blocks choices) :
    ((weave.enter id).behind front).Grows blocks choices :=
  ⟨fun b hb => h b (by simpa [behind, weave] using hb), nofun⟩

theorem everyOther_pairs (first : UInt32) (pairs : List (UInt32 × Id)) :
    everyOther (first :: pairs.flatMap fun p => [p.1, p.2]) = first :: pairs.map (·.2) := by
  induction pairs generalizing first with
  | nil => rfl
  | cons p pairs ih =>
    simp only [List.flatMap_cons, List.cons_append, List.nil_append, everyOther, ih, List.map_cons]

/-- A switch statement leads to the block behind it and to those of its reachable sections. -/
theorem mem_targets_switchOf {c : Choices} {l : Id}
    (hl : l ∈ (switchOf c.1 (weave.enter c.1.merge) c.sections).targets) :
    l = c.1.merge ∨ ∃ s ∈ reachable c.sections, l = s.2.entry := by
  have htargets : (switchOf c.1 (weave.enter c.1.merge) c.sections).targets
      = defaultEntry (weave.enter c.1.merge) c.sections
        :: (c.sections.flatMap fun s => s.1.literals.map fun value => (value, s.2.entry)).map
          (·.2) := by
    rw [← everyOther_pairs]
    simp only [List.flatMap_assoc, List.flatMap_map]
    rfl
  rw [htargets, List.mem_cons] at hl
  obtain rfl | hl := hl
  · rw [defaultEntry]
    cases hfind : c.sections.find? (·.1.isDefault) with
    | none => exact .inl rfl
    | some s =>
      refine .inr ⟨s, ?_, rfl⟩
      have hs := List.mem_of_find?_eq_some hfind
      have hdefault := List.find?_some hfind
      by_cases hlit : s.1.literals = [] <;> simp_all [reachable]
  · simp only [List.mem_map, List.mem_flatMap] at hl
    obtain ⟨p, ⟨s, hs, value, hvalue, rfl⟩, rfl⟩ := hl
    have hlit : s.1.literals ≠ [] := List.ne_nil_of_mem hvalue
    exact .inr ⟨s, by simp [reachable, hs, hlit], rfl⟩

theorem entry_mem_labels (k : Strand) : k.entry ∈ k.labels := by
  obtain ⟨done, label, body, terminator⟩ := k
  cases done with
  | nil => simp [entry, labels, close]
  | cons b done => simp [entry, labels, close]

/-- A selector leads to the sections of its switch statement. -/
theorem ends_selection {c : Choices} (hc : c ∈ choices) (hmerge : c.1.merge ∈ labelsOf blocks)
    (hsections : ∀ s ∈ reachable c.sections, s.2.close <:+: blocks.tail) :
    (selection c k).Ends blocks choices := by
  refine ⟨_, rfl, (by decide : Op.switch ∈ terminators), fun l hl => ?_,
    fun _ => ⟨c, hc, rfl, hsections⟩⟩
  obtain rfl | ⟨s, hs, rfl⟩ := mem_targets_switchOf hl
  · exact hmerge
  · exact (Within.of_close ((hsections s hs).trans (List.tail_suffix _).isInfix)).labels
      (entry_mem_labels _)

/-- The sections of a switch statement stand behind its selector. -/
theorem infix_tail {front : List Block} (hfront : front ≠ []) {rest : List Block}
    (h : front ++ rest <:+: blocks) :
    rest <:+: blocks.tail := by
  obtain ⟨before, after, rfl⟩ := h
  have hne : before ++ front ≠ [] := by simp [hfront]
  refine ⟨(before ++ front).tail, after, ?_⟩
  rw [show before ++ (front ++ rest) ++ after = (before ++ front) ++ (rest ++ after) by simp,
    List.tail_append_of_ne_nil hne, List.append_assoc]

/-- The blocks of a loop are well formed if those of its rounds are. -/
theorem grows_loopFrom {l : Looping (List Instruction)} {first : Id} {before : Strand}
    {rounds : List Block} (hwithin : (loopFrom l first before rounds).Within blocks)
    (hfirst : first ∈ labelsOf rounds) (hnext : l.next ∈ labelsOf rounds)
    (hbefore : before.Grows blocks choices) (hrounds : ∀ b ∈ rounds, b.Proper blocks choices) :
    (loopFrom l first before rounds).Grows blocks choices := by
  obtain ⟨hfront, -⟩ := hwithin.of_behind
  have hlabels := (labels_loopFrom l first before rounds) ▸ hwithin.labels
  have hinside : labelsOf rounds ⊆ labelsOf blocks := fun a ha => hlabels (by simp [ha])
  refine grows_behind fun b hb => ?_
  simp only [List.mem_append] at hb
  obtain hb | hb | hb := hb
  · exact (hbefore.leave _ _).close (ends_goOn (hlabels (by simp))) (by simp) b hb
  · refine ((grows_enter _).leave _ _).close (ends_goOn (hinside hfirst)) ?_ b hb
    rintro i ⟨⟩
    exact merges_loopMergeOf (hlabels (by simp)) (hinside hnext) _
  · exact hrounds b hb

theorem of_rounds {l : Looping (List Instruction)} {first : Id} {before : Strand}
    {rounds : List Block} (hwithin : (loopFrom l first before rounds).Within blocks) :
    rounds <:+: blocks ∧ l.header ∈ labelsOf blocks ∧ l.merge ∈ labelsOf blocks := by
  have hlabels := (labels_loopFrom l first before rounds) ▸ hwithin.labels
  refine ⟨?_, hlabels (by simp), hlabels (by simp)⟩
  have hfront := hwithin.of_behind.1
  rw [← List.append_assoc] at hfront
  exact (List.suffix_append _ _).isInfix.trans hfront

/-- Whether a statement is generated in well-formed blocks, where it can break out of some blocks
and go on with others. -/
structure GrowsBy (blocks : List Block) (choices : List Choices)
    (t : Statement (List Instruction)) : Prop where
  precedes (k : Strand) : k.Precedes (weave.flow k t)
  grows (k : Strand) : (weave.flow k t).Within blocks → k.Grows blocks choices →
    (weave.flow k t).Grows blocks choices
      ∧ (t.ends = true → (weave.flow k t).Ends blocks choices)

variable {t yes no body : Statement (List Instruction)}
  {value condition : Evaluation (List Instruction)}

/-- The blocks of a part of a statement that leads to the given one unless it is left before. -/
theorem GrowsBy.part {id target : Id} (ht : GrowsBy blocks choices t)
    (h : (weave.goOnUnless t.ends (weave.flow (weave.enter id) t) target).close <:+: blocks)
    (htarget : target ∈ labelsOf blocks) :
    id ∈ labelsOf blocks
      ∧ ∀ b ∈ (weave.goOnUnless t.ends (weave.flow (weave.enter id) t) target).close,
        b.Proper blocks choices := by
  have hwithin : (weave.flow (weave.enter id) t).Within blocks :=
    (Within.of_close h).of_precedes (by
      cases t.ends; exacts [(Precedes.refl _).leave _ _, Precedes.refl _])
  obtain ⟨hgrows, hends⟩ := ht.grows _ hwithin (grows_enter id)
  refine ⟨(hwithin.of_precedes (ht.precedes _)).labels (by simp), ?_⟩
  exact (hgrows.goOnUnless _ _).close (ends_goOnUnless hends htarget) (by simp)

theorem growsBy_branch (s : Selection (List Instruction)) (hcondition : condition.isStraight = true)
    (hyes : GrowsBy blocks choices yes) (hno : GrowsBy blocks choices no) :
    GrowsBy blocks choices (.branch s condition yes no) where
  precedes k := by
    rw [flow_branch]
    exact ((precedes_run k hcondition).leave _ _).behind _ _
  grows k hwithin hk := by
    rw [flow_branch] at hwithin ⊢
    obtain ⟨hfront, hlabels⟩ := hwithin.of_behind
    have hmerge : s.merge ∈ labelsOf blocks := hlabels (by simp)
    have hback := (List.suffix_append _ _).isInfix.trans hfront
    obtain ⟨hyesLabel, hyes⟩ := hyes.part ((List.prefix_append _ _).isInfix.trans hback) hmerge
    obtain ⟨hnoLabel, hno⟩ := hno.part ((List.suffix_append _ _).isInfix.trans hback) hmerge
    refine ⟨grows_behind fun b hb => ?_, nofun⟩
    simp only [List.mem_append] at hb
    obtain hb | hb | hb := hb
    · refine ((hk.run hcondition).leave _ _).close (ends_goOnIf hyesLabel hnoLabel) ?_ b hb
      rintro i ⟨⟩
      exact merges_mergeOf hmerge _
    · exact hyes b hb
    · exact hno b hb

/-- The rounds of a loop are well formed if the blocks in front of its body and behind it are. -/
theorem grows_rounds {l : Looping (List Instruction)} {first : Id} {before next : Strand}
    {test : List Block}
    (hbody : l.merge ∈ labelsOf blocks → l.next ∈ labelsOf blocks →
      GrowsBy blocks choices body) (hlabel : next.labels = [l.next])
    (hwithin : (loopFrom l first before (roundBlocks l body test next)).Within blocks)
    (hfirst : GrowsBy blocks choices body → first ∈ labelsOf (roundBlocks l body test next))
    (hbefore : before.Grows blocks choices)
    (htest : l.body ∈ labelsOf blocks → l.merge ∈ labelsOf blocks →
      ∀ b ∈ test, b.Proper blocks choices) (hnext : next.Grows blocks choices)
    (hends : l.header ∈ labelsOf blocks →
      l.merge ∈ labelsOf blocks → next.Ends blocks choices) :
    (loopFrom l first before (roundBlocks l body test next)).Grows blocks choices := by
  obtain ⟨hinside, hheader, hmerge⟩ := of_rounds hwithin
  have hback := (List.suffix_append _ _).isInfix.trans hinside
  have hnextLabel : l.next ∈ labelsOf blocks :=
    (Within.of_close ((List.suffix_append _ _).isInfix.trans hback)).labels (by simp [hlabel])
  have hbody := hbody hmerge hnextLabel
  have hfirst := hfirst hbody
  obtain ⟨hbodyLabel, hbody⟩ :=
    hbody.part ((List.prefix_append _ _).isInfix.trans hback) hnextLabel
  refine grows_loopFrom hwithin hfirst (by simp [hlabel]) hbefore fun b hb => ?_
  simp only [roundBlocks, List.mem_append] at hb
  obtain hb | hb | hb := hb
  · exact htest hbodyLabel hmerge b hb
  · exact hbody b hb
  · exact hnext.close (hends hheader hmerge) (by simp) b hb

theorem close_goOnIf {first yes no test : Id} (hcondition : condition.isStraight = true)
    (hyes : yes ∈ labelsOf blocks) (hno : no ∈ labelsOf blocks) :
    ∀ b ∈ (weave.goOnIf (weave.run (weave.enter first) condition) test yes no).close,
      b.Proper blocks choices :=
  (((grows_enter first).run hcondition).leave _ _).close (ends_goOnIf hyes hno) (by simp)

theorem growsBy_forLoop (l : Looping (List Instruction)) (first : Id)
    {start step : Evaluation (List Instruction)}
    {condition : Option (Evaluation (List Instruction))} (hstart : start.isStraight = true)
    (hcondition : ∀ t ∈ condition, t.isStraight = true) (hstep : step.isStraight = true)
    (hbody : l.merge ∈ labelsOf blocks → l.next ∈ labelsOf blocks →
      GrowsBy blocks choices body) :
    GrowsBy blocks choices (.forLoop l first start condition step body) where
  precedes k := by
    rw [flow_forLoop]
    exact precedes_loopFrom k l first (precedes_run k hstart) _
  grows k hwithin hk := by
    rw [flow_forLoop] at hwithin ⊢
    refine ⟨grows_rounds hbody (by simp [labels_run _ hstep]) hwithin (fun _ => ?_)
      (hk.run hstart) (fun hbodyLabel hmerge => ?_)
      (((grows_enter _).run hstep).leave _ _) fun hheader _ => ends_goOn hheader, nofun⟩
    · cases condition with
      | none => simp [Weave.testCode]
      | some condition => simp [Weave.testCode, labels_run _ (hcondition condition rfl)]
    · cases condition with
      | none => exact ((grows_enter first).leave _ _).close (ends_goOn hbodyLabel) (by simp)
      | some condition => exact close_goOnIf (hcondition condition rfl) hbodyLabel hmerge

theorem growsBy_whileLoop (l : Looping (List Instruction)) (first : Id)
    (hcondition : condition.isStraight = true)
    (hbody : l.merge ∈ labelsOf blocks → l.next ∈ labelsOf blocks →
      GrowsBy blocks choices body) :
    GrowsBy blocks choices (.whileLoop l first condition body) where
  precedes k := by
    rw [flow_whileLoop]
    exact precedes_loopFrom k l first (.refl k) _
  grows k hwithin hk := by
    rw [flow_whileLoop] at hwithin ⊢
    refine ⟨grows_rounds hbody (by simp) hwithin
      (fun _ => by simp [Weave.testCode, labels_run _ hcondition]) hk
      (fun hbodyLabel hmerge => close_goOnIf hcondition hbodyLabel hmerge)
      ((grows_enter _).leave _ _) fun hheader _ => ends_goOn hheader, nofun⟩

theorem growsBy_doLoop (l : Looping (List Instruction)) (hcondition : condition.isStraight = true)
    (hbody : l.merge ∈ labelsOf blocks → l.next ∈ labelsOf blocks →
      GrowsBy blocks choices body) :
    GrowsBy blocks choices (.doLoop l body condition) where
  precedes k := by
    rw [flow_doLoop]
    exact precedes_loopFrom k l l.body (.refl k) _
  grows k hwithin hk := by
    rw [flow_doLoop] at hwithin ⊢
    have hfirst (hbody : GrowsBy blocks choices body) :
        l.body ∈ (weave.flow (weave.enter l.body) body).labels :=
      (hbody.precedes _).labels.subset (by simp)
    refine ⟨grows_rounds hbody (by simp [labels_run _ hcondition]) hwithin
      (fun hbody => by simp [hfirst hbody]) hk
      (fun _ _ => nofun) (((grows_enter _).run hcondition).leave _ _)
      fun hheader hmerge => ends_goOnIf hheader hmerge, nofun⟩

/-- Whether the sections of a switch statement are generated in well-formed blocks. -/
def SectionsGrow (blocks : List Block) (choices : List Choices) (s : Sections (List Instruction)) :
    Prop :=
  ∀ k : Strand, k.Grows blocks choices → ∀ c ∈ weave.sectionCodes k s, c.2.Within blocks →
    c.2.Grows blocks choices ∧ c.2.Ends blocks choices

theorem growsBy_switch {c : Choices} (hc : c ∈ choices) (hselector : value.isStraight = true)
    (hsections : c.1.merge ∈ labelsOf blocks → SectionsGrow blocks choices c.2) :
    GrowsBy blocks choices (.switch c.1 value c.2) where
  precedes k := by
    rw [flow_switch]
    exact ((precedes_run k hselector).selection _).behind _ _
  grows k hwithin hk := by
    rw [flow_switch] at hwithin ⊢
    obtain ⟨hfront, hlabels⟩ := hwithin.of_behind
    have hmerge : c.1.merge ∈ labelsOf blocks := hlabels (by simp)
    have hinside : ∀ s ∈ reachable c.sections, s.2.close <:+: blocks.tail := fun s hs => by
      have hs : s.2.close <:+: (reachable c.sections).flatMap (·.2.close) := by
        obtain ⟨before, after, heq⟩ := List.append_of_mem hs
        exact ⟨before.flatMap (·.2.close), after.flatMap (·.2.close), by rw [heq]; simp⟩
      exact hs.trans (infix_tail (by simp [close]) hfront)
    refine ⟨grows_behind fun b hb => ?_, nofun⟩
    obtain hb | hb := List.mem_append.mp hb
    · refine ((hk.run hselector).selection c).close (ends_selection hc hmerge hinside) ?_ b hb
      rintro i ⟨⟩
      exact merges_mergeOf hmerge _
    · obtain ⟨s, hs, hb⟩ := List.mem_flatMap.mp hb
      have hwithin := Within.of_close ((hinside s hs).trans (List.tail_suffix _).isInfix)
      have hmem : s ∈ c.sections := by
        obtain hs | hs := List.mem_append.mp hs <;> exact (List.mem_filter.mp hs).1
      obtain ⟨hgrows, hends⟩ := hsections hmerge _ (grows_enter _) s hmem hwithin
      exact hgrows.close hends (by simp) b hb

end Growth

section Statements

variable {blocks : List Block} {choices : List Choices}
  {test : Evaluation (List Instruction) → Prop} (htest : ∀ t, test t → t.isStraight = true)

include htest

mutual

/-- The blocks of a statement are well formed. -/
theorem growsBy :
    (t : Statement (List Instruction)) →
      t.All test → t.Live → {breaks continues : List Id} →
    t.Scoped breaks continues → (∀ l ∈ breaks.head?, l ∈ labelsOf blocks) →
    (∀ l ∈ continues.head?, l ∈ labelsOf blocks) →
      t.switches ⊆ choices → GrowsBy blocks choices t
  -- By induction over the statement. Where a loop or a switch statement ends is a label only
  -- once its code is put together. Its lemma gives this to the parts, whose jumps lead there.
  | .nothing, _, _, _, _, _, _, _, _ => ⟨fun k => .refl k, fun k _ hk => ⟨hk, nofun⟩⟩
  | .andThen x y, ht, hlive, _, _, hscoped, hbreaks, hcontinues, hswitches => by
    have hx := growsBy x ht.1 hlive.1 hscoped.1 hbreaks hcontinues
      fun _ h => hswitches (List.mem_append_left _ h)
    have hy := growsBy y ht.2 hlive.2.1 hscoped.2 hbreaks hcontinues
      fun _ h => hswitches (List.mem_append_right _ h)
    refine ⟨fun k => (hx.precedes k).trans (hy.precedes _), fun k hwithin hk => ?_⟩
    obtain ⟨hgrows, hends⟩ := hx.grows k (hwithin.of_precedes (hy.precedes _)) hk
    obtain ⟨hgrows', hends'⟩ := hy.grows _ hwithin hgrows
    refine ⟨hgrows', fun hended => ?_⟩
    rw [Statement.ends, Bool.or_eq_true] at hended
    obtain hended | hended := hended
    · rw [Weave.flow, weave.flow_of_isIdle _ (hlive.2.2 hended)]
      exact hends hended
    · exact hends' hended
  | .nested body, ht, hlive, _, _, hscoped, hbreaks, hcontinues, hswitches =>
    have hbody := growsBy body ht hlive hscoped hbreaks hcontinues hswitches
    ⟨hbody.precedes, hbody.grows⟩
  | .evaluate _ value, ht, _, _, _, _, _, _, _ =>
    ⟨fun k => precedes_run k (htest value ht),
      fun k _ hk => ⟨hk.run (htest value ht), nofun⟩⟩
  | .leave value exit, ht, _, _, _, hscoped, hbreaks, hcontinues, _ =>
    ⟨fun k => (precedes_run k (htest value ht)).leave _ _,
      fun k _ hk => ⟨(hk.run (htest value ht)).leave _ _,
        fun _ => ends_exit hscoped hbreaks hcontinues⟩⟩
  | .branch s condition yes no, ht, hlive, _, _, hscoped, hbreaks, hcontinues, hswitches =>
    growsBy_branch s (htest condition ht.1)
      (growsBy yes ht.2.1 hlive.1 hscoped.1 hbreaks hcontinues
        fun _ h => hswitches (List.mem_append_left _ h))
      (growsBy no ht.2.2 hlive.2 hscoped.2 hbreaks hcontinues
        fun _ h => hswitches (List.mem_append_right _ h))
  | .switch d selector sections, ht, hlive, _, _, hscoped, hbreaks, hcontinues, hswitches =>
    growsBy_switch (hswitches List.mem_cons_self) (htest selector ht.1) fun hmerge =>
      sectionsGrow sections ht.2.2 hlive hscoped (by rintro l ⟨⟩; exact hmerge) hcontinues
        fun _ h => hswitches (List.mem_cons_of_mem _ h)
  | .forLoop l first start condition step body, ht, hlive, _, _, hscoped, _, _, hswitches =>
    growsBy_forLoop l first (htest start ht.1) (fun t h => htest t (ht.2.1 t h))
      (htest step ht.2.2.1) fun hmerge hnext =>
        growsBy body ht.2.2.2 hlive hscoped (by rintro l ⟨⟩; exact hmerge)
          (by rintro l ⟨⟩; exact hnext) hswitches
  | .whileLoop l first condition body, ht, hlive, _, _, hscoped, _, _, hswitches =>
    growsBy_whileLoop l first (htest condition ht.1) fun hmerge hnext =>
      growsBy body ht.2 hlive hscoped (by rintro l ⟨⟩; exact hmerge)
        (by rintro l ⟨⟩; exact hnext) hswitches
  | .doLoop l body condition, ht, hlive, _, _, hscoped, _, _, hswitches =>
    growsBy_doLoop l (htest condition ht.2) fun hmerge hnext =>
      growsBy body ht.1 hlive hscoped (by rintro l ⟨⟩; exact hmerge)
        (by rintro l ⟨⟩; exact hnext) hswitches

theorem sectionsGrow :
    (s : Sections (List Instruction)) → s.All test → s.Live → {breaks continues : List Id} →
    s.Scoped breaks continues → (∀ l ∈ breaks.head?, l ∈ labelsOf blocks) →
    (∀ l ∈ continues.head?, l ∈ labelsOf blocks) →
      s.switches ⊆ choices → SectionsGrow blocks choices s
  | .last l values body, hs, hlive, _, _, hscoped, hbreaks, hcontinues, hswitches => by
    have hbody := growsBy body hs.2 hlive.1 hscoped hbreaks hcontinues hswitches
    intro k hk c hc hwithin
    obtain rfl := List.mem_singleton.mp hc
    have hgrows := hbody.grows _ hwithin (hk.run (htest values hs.1))
    exact ⟨hgrows.1, hgrows.2 hlive.2⟩
  | .more l values body next rest, hs, hlive, _, _, hscoped, hbreaks, hcontinues, hswitches => by
    have hbody := growsBy body hs.2.1 hlive.1 hscoped.1 hbreaks hcontinues
      fun _ h => hswitches (List.mem_append_left _ h)
    have hrest := sectionsGrow rest hs.2.2 hlive.2.2 hscoped.2 hbreaks hcontinues
      fun _ h => hswitches (List.mem_append_right _ h)
    intro k hk c hc hwithin
    obtain rfl | hc := List.mem_cons.mp hc
    · have hgrows := hbody.grows _ hwithin (hk.run (htest values hs.1))
      exact ⟨hgrows.1, hgrows.2 hlive.2.1⟩
    · exact hrest _ (grows_enter next) c hc hwithin

end

end Statements
end Strand

end ShaderEffect.Spirv
